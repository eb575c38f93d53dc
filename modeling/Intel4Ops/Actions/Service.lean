import Intel4Ops.Actions.Engine
import Intel4Ops.Lib.Ident
import Intel4Ops.Lib.Service
import Intel4Ops.Lib.Table

/-!
# Operational actions: the service

The tables of `app/models/actions.py` and the operations of `app/services/action_service.py`. Rows
keep the columns that these operations read or compute; titles, descriptions, notes, references to
documents and the metadata of events are left out.
-/

namespace Intel4Ops.ActionService

open Lib Lib.Decimal Intel4Ops.Actions Table Prod

/-! ## Rows -/

structure OperationalAction where
  (id organizationId : UUID)
  (sourceType sourceReference : String)
  (reliabilityExecutionId findingId forecastExecutionId orchestrationRequestId : Option UUID)
  (recommendationType recommendationRuleVersion priority : String)
  priorityScore : ℚ
  status : ActionStatus
  approvalRequired : Bool
  (approvalLevel approvalRole approvalStatus : String)
  assignedUserId : Option UUID
  (assignedRole assignedTeam : Option String)
  verificationRequired : Bool
  (dueAt completedAt verifiedAt : Option Instant)
  (expectedAvoidedCost expectedInterventionCost : Option ℚ)
  currencyCode : Option String
  confidenceScore : Option ℚ
  limitations : List String
  idempotencyFingerprint : String
  createdByUserId : UUID

structure ActionPlanStep where
  (organizationId actionId : UUID)
  sequenceNumber : ℕ
  (title description : String)

structure ActionDependency where
  (organizationId actionId prerequisiteActionId : UUID)
  dependencyType : String
  mandatory : Bool
  status : String := "unresolved"

structure ActionResourceRequirement where
  (organizationId actionId : UUID)
  (resourceType resourceIdentifier : String)
  requiredQuantity : ℚ
  availableQuantity : Option ℚ
  mandatory : Bool
  inventoryCheckStatus : String
  shortage : Bool

structure ActionEvent where
  (organizationId actionId : UUID)
  eventType : String
  (priorStatus newStatus : Option ActionStatus)
  actorUserId : UUID
  (actorRole reasonCode idempotencyKey : String)

structure ActionEvidence where
  (organizationId actionId : UUID)
  lifecycleStage : String
  measurementValue : Option ℚ
  actorUserId : UUID

structure ActionOutcome where
  (organizationId actionId : UUID)
  outcomeType : String
  (avoidedCost interventionCost downtimeAvoided productionPreserved riskReduction confidenceScore
    : Option ℚ)
  verifiedByUserId : Option UUID
  verifiedAt : Option Instant

structure ActionModelFeedback where
  (organizationId actionId reliabilityExecutionId : UUID)
  predictionOutcomeClassification : String
  (predictedProbability actualTimeToEventDays : Option ℚ)

structure Db where
  actions : List OperationalAction
  planSteps : List ActionPlanStep
  dependencies : List ActionDependency
  resources : List ActionResourceRequirement
  events : List ActionEvent
  evidence : List ActionEvidence
  outcomes : List ActionOutcome
  feedback : List ActionModelFeedback

def Db.empty : Db := ⟨[], [], [], [], [], [], [], []⟩

/-- What the queries on other tables find while a request is served, as pairs of an organization
and a row of it. -/
structure Context where
  (activeMembers reliabilityExecutions findings forecastExecutions orchestrationRequests
    : List (UUID × UUID))

/-! ## Payloads -/

structure ActionCreate where
  (sourceType sourceReference : String)
  reliabilityExecutionId : Option UUID := none
  findingId : Option UUID := none
  forecastExecutionId : Option UUID := none
  orchestrationRequestId : Option UUID := none
  recommendationType : String
  recommendationRuleVersion : String := "1.0"
  failureProbability : Option ℚ := none
  predictionHorizonDays : Option ℤ := none
  severity : ℕ := 3
  confidenceScore : Option ℚ := none
  expectedAvoidedCost : Option ℚ := none
  expectedInterventionCost : Option ℚ := none
  currencyCode : Option String := none
  dueAt : Option Instant := none
  sensitive : Bool := false
  verificationRequired : Bool := true
  limitations : List String := []

structure ActionTransitionCreate where
  newStatus : ActionStatus
  (reasonCode idempotencyKey : String)

structure ActionAssignmentCreate where
  assignedUserId : Option UUID := none
  assignedRole : Option String := none
  assignedTeam : Option String := none
  dueAt : Option Instant := none
  idempotencyKey : String

structure ActionPlanStepCreate where
  sequenceNumber : ℕ
  (title description : String)

structure ActionDependencyCreate where
  prerequisiteActionId : UUID
  dependencyType : String
  mandatory : Bool := true

structure ActionResourceCreate where
  (resourceType resourceIdentifier : String)
  requiredQuantity : ℚ
  availableQuantity : Option ℚ := none
  mandatory : Bool := true

structure ActionEvidenceCreate where
  lifecycleStage : String
  measurementValue : Option ℚ := none

structure ActionOutcomeCreate where
  outcomeType : String
  avoidedCost : Option ℚ := none
  interventionCost : Option ℚ := none
  downtimeAvoided : Option ℚ := none
  productionPreserved : Option ℚ := none
  riskReduction : Option ℚ := none
  confidenceScore : Option ℚ := none

structure ActionFeedbackCreate where
  (failureOccurred interventionPerformed : Bool)
  predictedPositive : Bool := true
  observationWindowComplete : Bool
  predictedProbability : Option ℚ := none
  actualTimeToEventDays : Option ℚ := none

/-! ## Columns -/

/-- A `Numeric(digits, scale)` column. -/
def numericColumn (column : String) (digits scale : ℕ) (x : ℚ) : Except ActionServiceError ℚ :=
  orFail (numeric digits scale x) (.dataError column)

/-- A `Numeric(digits, scale)` column that may be null. -/
def nullableColumn (column : String) (digits scale : ℕ) :
    Option ℚ → Except ActionServiceError (Option ℚ)
  | none => .ok none
  | some x => (numericColumn column digits scale x).map some

/-! ## Create -/

/-- `_validate_source`. -/
def validateSource (context : Context) (org : UUID) (payload : ActionCreate) :
    Except ActionServiceError Unit :=
  ensure ((∀ id ∈ payload.reliabilityExecutionId, (org, id) ∈ context.reliabilityExecutions) ∧
      (∀ id ∈ payload.findingId, (org, id) ∈ context.findings) ∧
      (∀ id ∈ payload.forecastExecutionId, (org, id) ∈ context.forecastExecutions) ∧
      ∀ id ∈ payload.orchestrationRequestId, (org, id) ∈ context.orchestrationRequests)
    (fail "SOURCE_NOT_FOUND" "Action source not found" 404)

/-- `idempotency_fingerprint`: the digest of the organization and of the source type, source
reference, recommendation type and rule version. -/
abbrev Fingerprint := UUID → String → String → String → String → String

def fingerprintOf (fingerprint : Fingerprint) (org : UUID) (payload : ActionCreate) : String :=
  fingerprint org payload.sourceType payload.sourceReference payload.recommendationType
    payload.recommendationRuleVersion

def approvalOf (payload : ActionCreate) : ApprovalResult :=
  calculateApproval (payload.expectedInterventionCost.getD 0) (payload.expectedAvoidedCost.getD 0)
    (payload.confidenceScore.getD 0) payload.sensitive

/-- The row of a new action, as its columns store it. -/
def newAction (org : UUID) (payload : ActionCreate) (actor id : UUID) (key : String) :
    Except ActionServiceError OperationalAction := do
  let priority ← calculatePriority
    { failureProbability := payload.failureProbability, severity := payload.severity
      horizonDays := payload.predictionHorizonDays, confidence := payload.confidenceScore
      financialExposure := payload.expectedAvoidedCost }
  let priorityScore ← numericColumn "priority_score" 8 2 priority.score
  let expectedAvoidedCost ← nullableColumn "expected_avoided_cost" 38 12 payload.expectedAvoidedCost
  let expectedInterventionCost ←
    nullableColumn "expected_intervention_cost" 38 12 payload.expectedInterventionCost
  let confidenceScore ← nullableColumn "confidence_score" 6 5 payload.confidenceScore
  let approval := approvalOf payload
  return { id, organizationId := org, sourceType := payload.sourceType
           sourceReference := payload.sourceReference
           reliabilityExecutionId := payload.reliabilityExecutionId, findingId := payload.findingId
           forecastExecutionId := payload.forecastExecutionId
           orchestrationRequestId := payload.orchestrationRequestId
           recommendationType := payload.recommendationType
           recommendationRuleVersion := payload.recommendationRuleVersion
           priority := priority.classification, priorityScore, status := .proposed
           approvalRequired := approval.required, approvalLevel := approval.level
           approvalRole := approval.role
           approvalStatus := if approval.required then "required" else "not_required"
           assignedUserId := none, assignedRole := none, assignedTeam := none
           verificationRequired := payload.verificationRequired, dueAt := payload.dueAt
           completedAt := none, verifiedAt := none, expectedAvoidedCost, expectedInterventionCost
           currencyCode := payload.currencyCode, confidenceScore
           limitations := payload.limitations ++ priority.limitations
           idempotencyFingerprint := key, createdByUserId := actor }

/-- `_event`; an action has one event for each idempotency key. -/
def recordEvent (db : Db) (event : ActionEvent) : Except ActionServiceError Db := do
  let events ← orFail (insert
      (fun a b => a.actionId = b.actionId ∧ a.idempotencyKey = b.idempotencyKey) event db.events)
    (.integrity "uq_action_event_idempotency")
  return { db with events }

def create (fingerprint : Fingerprint) (context : Context) (db : Db) (org : UUID)
    (payload : ActionCreate) (actor id : UUID) :
    Except ActionServiceError (Db × OperationalAction) := do
  validateSource context org payload
  let key := fingerprintOf fingerprint org payload
  match db.actions.find? fun a => a.organizationId = org ∧ a.idempotencyFingerprint = key with
  | some existing => return (db, existing)
  | none =>
    let action ← newAction org payload actor id key
    let actions ← orFail (insert (fun a b => a.id = b.id) action db.actions)
      (.integrity "operational_actions")
    let db ← recordEvent { db with actions }
      { organizationId := org, actionId := id, eventType := "created", priorStatus := none
        newStatus := none, actorUserId := actor, actorRole := "system"
        reasonCode := "ACTION_CREATED", idempotencyKey := key }
    return (db, action)

def get (db : Db) (org actionId : UUID) : Except ActionServiceError OperationalAction :=
  orFail (db.actions.find? fun a => a.id = actionId ∧ a.organizationId = org)
    (fail "NOT_FOUND" "Operational action not found" 404)

/-! ## Transition and assignment -/

def findEvent (db : Db) (actionId : UUID) (key : String) : Option ActionEvent :=
  db.events.find? fun e => e.actionId = actionId ∧ e.idempotencyKey = key

def adminRoles : List String := ["organization_admin", "platform_admin"]

def dependencyPairs (db : Db) (actionId : UUID) : List (Bool × Bool) :=
  (db.dependencies.filter (·.actionId = actionId)).map fun item =>
    (item.mandatory, item.status = "resolved")

def resourcePairs (db : Db) (actionId : UUID) : List (Bool × Bool) :=
  (db.resources.filter (·.actionId = actionId)).map fun item =>
    (item.mandatory, !item.shortage && item.inventoryCheckStatus = "confirmed")

def verificationCount (db : Db) (actionId : UUID) : ℕ :=
  db.evidence.countP fun e => e.actionId = actionId ∧ e.lifecycleStage = "verification"

/-- What a new status asks for beyond the table of transitions. -/
def checkStatus (db : Db) (action : OperationalAction) (newStatus : ActionStatus)
    (actorRole : String) : Except ActionServiceError Unit :=
  match newStatus with
  | .approved => ensure (action.approvalRequired = true → actorRole ∈ adminRoles)
      (fail "APPROVAL_FORBIDDEN" "Authorized approval role required" 403)
  | .completed => do
    ensure (dependenciesReady (dependencyPairs db action.id) = true)
      (fail "DEPENDENCY_BLOCKED" "Mandatory dependency unresolved")
    ensure (resourcesReady (resourcePairs db action.id) = true)
      (fail "RESOURCE_BLOCKED" "Mandatory resource unavailable")
  | .verified => ensure (verificationCount db action.id ≠ 0)
      (fail "VERIFICATION_EVIDENCE_REQUIRED" "Verification evidence is required")
  | _ => .ok ()

/-- What a transition writes to the action. -/
def OperationalAction.moveTo (newStatus : ActionStatus) (now : Instant)
    (action : OperationalAction) : OperationalAction :=
  let action := { action with status := newStatus }
  match newStatus with
  | .pendingApproval => { action with approvalStatus := "pending" }
  | .approved => { action with approvalStatus := "approved" }
  | .rejected => { action with approvalStatus := "rejected" }
  | .completed => { action with completedAt := some now }
  | .verified => { action with verifiedAt := some now }
  | _ => action

def writeAction (db : Db) (actionId : UUID) (f : OperationalAction → OperationalAction) : Db :=
  { db with actions := update (·.id = actionId) f db.actions }

def transitionEvent (action : OperationalAction) (payload : ActionTransitionCreate) (actor : UUID)
    (actorRole : String) : ActionEvent :=
  { organizationId := action.organizationId, actionId := action.id, eventType := "transition"
    priorStatus := some action.status, newStatus := some payload.newStatus, actorUserId := actor
    actorRole, reasonCode := payload.reasonCode, idempotencyKey := payload.idempotencyKey }

def transition (db : Db) (org actionId : UUID) (payload : ActionTransitionCreate) (actor : UUID)
    (actorRole : String) (now : Instant) : Except ActionServiceError (Db × OperationalAction) := do
  let action ← get db org actionId
  match findEvent db action.id payload.idempotencyKey with
  | some _ => return (db, action)
  | none =>
    requireTransition action.status payload.newStatus
    checkStatus db action payload.newStatus actorRole
    let db ← recordEvent (writeAction db action.id (.moveTo payload.newStatus now))
      (transitionEvent action payload actor actorRole)
    return (db, action.moveTo payload.newStatus now)

def OperationalAction.assignTo (payload : ActionAssignmentCreate) (action : OperationalAction) :
    OperationalAction :=
  { action with
    assignedUserId := payload.assignedUserId, assignedRole := payload.assignedRole
    assignedTeam := payload.assignedTeam, dueAt := payload.dueAt <|> action.dueAt }

def assign (context : Context) (db : Db) (org actionId : UUID) (payload : ActionAssignmentCreate)
    (actor : UUID) (actorRole : String) : Except ActionServiceError (Db × OperationalAction) := do
  let action ← get db org actionId
  ensure (∀ user ∈ payload.assignedUserId, (org, user) ∈ context.activeMembers)
    (fail "ASSIGNEE_NOT_FOUND" "Active tenant assignee not found" 404)
  let db ← recordEvent (writeAction db action.id (.assignTo payload))
    { organizationId := action.organizationId, actionId := action.id, eventType := "assignment"
      priorStatus := none, newStatus := none, actorUserId := actor, actorRole
      reasonCode := "ACTION_ASSIGNED", idempotencyKey := payload.idempotencyKey }
  return (db, action.assignTo payload)

/-! ## What belongs to an action -/

def addPlanStep (db : Db) (org actionId : UUID) (payload : ActionPlanStepCreate) :
    Except ActionServiceError (Db × ActionPlanStep) := do
  let _ ← get db org actionId
  let row : ActionPlanStep :=
    { organizationId := org, actionId, sequenceNumber := payload.sequenceNumber
      title := payload.title, description := payload.description }
  let planSteps ← orFail (insert
      (fun a b => a.actionId = b.actionId ∧ a.sequenceNumber = b.sequenceNumber) row db.planSteps)
    (.integrity "uq_action_plan_step_sequence")
  return ({ db with planSteps }, row)

def newDependency (org actionId : UUID) (payload : ActionDependencyCreate) : ActionDependency :=
  { organizationId := org, actionId, prerequisiteActionId := payload.prerequisiteActionId
    dependencyType := payload.dependencyType, mandatory := payload.mandatory }

def addDependency (db : Db) (org actionId : UUID) (payload : ActionDependencyCreate) :
    Except ActionServiceError (Db × ActionDependency) := do
  let _ ← get db org actionId
  let _ ← get db org payload.prerequisiteActionId
  ensure (actionId ≠ payload.prerequisiteActionId)
    (fail "SELF_DEPENDENCY" "An action cannot depend on itself")
  ensure (¬ ∃ d ∈ db.dependencies, d.actionId = payload.prerequisiteActionId ∧
      d.prerequisiteActionId = actionId)
    (fail "DEPENDENCY_CYCLE" "Direct dependency cycle detected")
  let row := newDependency org actionId payload
  let dependencies ← orFail (insert (fun a b => a.actionId = b.actionId ∧
      a.prerequisiteActionId = b.prerequisiteActionId) row db.dependencies)
    (.integrity "uq_action_dependency_pair")
  return ({ db with dependencies }, row)

def addResource (db : Db) (org actionId : UUID) (payload : ActionResourceCreate) :
    Except ActionServiceError (Db × ActionResourceRequirement) := do
  let _ ← get db org actionId
  let requiredQuantity ← numericColumn "required_quantity" 18 6 payload.requiredQuantity
  let availableQuantity ← nullableColumn "available_quantity" 18 6 payload.availableQuantity
  let row : ActionResourceRequirement :=
    { organizationId := org, actionId, resourceType := payload.resourceType
      resourceIdentifier := payload.resourceIdentifier, requiredQuantity, availableQuantity
      mandatory := payload.mandatory
      inventoryCheckStatus := if payload.availableQuantity.isSome then "confirmed" else "unknown"
      shortage := payload.availableQuantity.any (· < payload.requiredQuantity) }
  return ({ db with resources := db.resources ++ [row] }, row)

def addEvidence (db : Db) (org actionId : UUID) (payload : ActionEvidenceCreate) (actor : UUID) :
    Except ActionServiceError (Db × ActionEvidence) := do
  let _ ← get db org actionId
  let measurementValue ← nullableColumn "measurement_value" 38 12 payload.measurementValue
  let row : ActionEvidence :=
    { organizationId := org, actionId, lifecycleStage := payload.lifecycleStage, measurementValue
      actorUserId := actor }
  return ({ db with evidence := db.evidence ++ [row] }, row)

/-- The row of an outcome, as its columns store it. -/
def newOutcome (org actionId : UUID) (payload : ActionOutcomeCreate) (actor : UUID)
    (now : Instant) : Except ActionServiceError ActionOutcome := do
  let avoidedCost ← nullableColumn "avoided_cost" 38 12 payload.avoidedCost
  let interventionCost ← nullableColumn "intervention_cost" 38 12 payload.interventionCost
  let downtimeAvoided ← nullableColumn "downtime_avoided" 38 12 payload.downtimeAvoided
  let productionPreserved ← nullableColumn "production_preserved" 38 12 payload.productionPreserved
  let riskReduction ← nullableColumn "risk_reduction" 8 5 payload.riskReduction
  let confidenceScore ← nullableColumn "confidence_score" 6 5 payload.confidenceScore
  return { organizationId := org, actionId, outcomeType := payload.outcomeType, avoidedCost
           interventionCost, downtimeAvoided, productionPreserved, riskReduction, confidenceScore
           verifiedByUserId := if payload.outcomeType = "realized" then some actor else none
           verifiedAt := if payload.outcomeType = "realized" then some now else none }

def recordOutcome (db : Db) (org actionId : UUID) (payload : ActionOutcomeCreate) (actor : UUID)
    (now : Instant) : Except ActionServiceError (Db × ActionOutcome) := do
  let action ← get db org actionId
  ensure (payload.outcomeType = "realized" →
      realizedValueEligible action.status (verificationCount db action.id) = true)
    (fail "REALIZED_VALUE_NOT_ELIGIBLE" "Realized value requires verified action and evidence")
  let row ← newOutcome org actionId payload actor now
  let outcomes ← orFail (insert
      (fun a b => a.actionId = b.actionId ∧ a.outcomeType = b.outcomeType) row db.outcomes)
    (.integrity "uq_action_outcome_type")
  return ({ db with outcomes }, row)

def feedback (db : Db) (org actionId : UUID) (payload : ActionFeedbackCreate) :
    Except ActionServiceError (Db × ActionModelFeedback) := do
  let action ← get db org actionId
  let notEligible := fail "FEEDBACK_NOT_ELIGIBLE" "Verified reliability action required"
  ensure (action.status = .verified) notEligible
  let reliabilityExecutionId ← orFail action.reliabilityExecutionId notEligible
  let predictedProbability ← nullableColumn "predicted_probability" 8 6 payload.predictedProbability
  let actualTimeToEventDays ←
    nullableColumn "actual_time_to_event_days" 12 4 payload.actualTimeToEventDays
  let row : ActionModelFeedback :=
    { organizationId := org, actionId, reliabilityExecutionId
      predictionOutcomeClassification := classifyFeedback payload.predictedPositive
        payload.failureOccurred payload.interventionPerformed payload.observationWindowComplete
      predictedProbability, actualTimeToEventDays }
  let feedback ← orFail (insert (fun a b => a.actionId = b.actionId ∧
      a.reliabilityExecutionId = b.reliabilityExecutionId) row db.feedback)
    (.integrity "uq_action_feedback")
  return ({ db with feedback }, row)

/-! ## Requests -/

inductive Request
  | create (payload : ActionCreate)
  | transition (actionId : UUID) (payload : ActionTransitionCreate)
  | assign (actionId : UUID) (payload : ActionAssignmentCreate)
  | addPlanStep (actionId : UUID) (payload : ActionPlanStepCreate)
  | addDependency (actionId : UUID) (payload : ActionDependencyCreate)
  | addResource (actionId : UUID) (payload : ActionResourceCreate)
  | addEvidence (actionId : UUID) (payload : ActionEvidenceCreate)
  | recordOutcome (actionId : UUID) (payload : ActionOutcomeCreate)
  | feedback (actionId : UUID) (payload : ActionFeedbackCreate)

/-- A request of an organization's member, with the time it is served, the identifier drawn and
what the other tables then hold. -/
structure Call where
  (organizationId actor : UUID)
  actorRole : String
  now : Instant
  drawn : UUID
  context : Context
  request : Request

inductive Reply
  | action (row : OperationalAction)
  | planStep (row : ActionPlanStep)
  | dependency (row : ActionDependency)
  | resource (row : ActionResourceRequirement)
  | evidence (row : ActionEvidence)
  | outcome (row : ActionOutcome)
  | feedback (row : ActionModelFeedback)

/-- Serve one request in a transaction of its own. -/
def serve (fingerprint : Fingerprint) : Service Db Call Reply ActionServiceError := fun db call =>
  let org := call.organizationId
  match call.request with
  | .create payload =>
    (create fingerprint call.context db org payload call.actor call.drawn).map (map id .action)
  | .transition actionId payload =>
    (transition db org actionId payload call.actor call.actorRole call.now).map (map id .action)
  | .assign actionId payload =>
    (assign call.context db org actionId payload call.actor call.actorRole).map (map id .action)
  | .addPlanStep actionId payload =>
    (addPlanStep db org actionId payload).map (map id .planStep)
  | .addDependency actionId payload =>
    (addDependency db org actionId payload).map (map id .dependency)
  | .addResource actionId payload =>
    (addResource db org actionId payload).map (map id .resource)
  | .addEvidence actionId payload =>
    (addEvidence db org actionId payload call.actor).map (map id .evidence)
  | .recordOutcome actionId payload =>
    (recordOutcome db org actionId payload call.actor call.now).map (map id .outcome)
  | .feedback actionId payload =>
    (feedback db org actionId payload).map (map id .feedback)

end Intel4Ops.ActionService

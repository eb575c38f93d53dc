import Intel4Ops.Actions.Service
import Intel4Ops.Lib.Json
import Intel4Ops.Lib.Merge

/-!
# Decision intelligence: data model

The rows of `app/models/decision_intelligence.py` and the payloads of
`app/schemas/decision_intelligence.py`, as `app/services/decision_intelligence_service.py` uses
them. Explanations, rationales, evidence summaries and the metadata of a solver are left out.
-/

namespace Intel4Ops.Decisions

open Lib Lib.Decimal

inductive ScenarioStatus
  | draft | validating | ready | blocked | executing | completed | superseded | cancelled
  deriving DecidableEq

inductive ExecutionStatus
  | queued | validating | blocked | running | solvedOptimal | solvedFeasible | infeasible
  | unbounded | timedOut | failed | cancelled
  deriving DecidableEq

def ExecutionStatus.value : ExecutionStatus → String
  | queued => "queued"
  | validating => "validating"
  | blocked => "blocked"
  | running => "running"
  | solvedOptimal => "solved_optimal"
  | solvedFeasible => "solved_feasible"
  | infeasible => "infeasible"
  | unbounded => "unbounded"
  | timedOut => "timed_out"
  | failed => "failed"
  | cancelled => "cancelled"

inductive RecommendationStatus
  | proposed | reviewed | approved | rejected | convertedToAction | superseded | expired
  deriving DecidableEq

inductive ApprovalDecision
  | approve | reject | defer | requestChanges
  deriving DecidableEq

def ApprovalDecision.value : ApprovalDecision → String
  | approve => "approve"
  | reject => "reject"
  | defer => "defer"
  | requestChanges => "request_changes"

/-! ## Governed definitions -/

structure DecisionProblem where
  id : UUID
  ownerOrganizationId : Option UUID
  useCaseCode : String

structure DecisionProblemVersion where
  (id problemId : UUID)
  published : Bool

structure DecisionMethodDefinition where
  id : UUID
  ownerOrganizationId : Option UUID
  (methodCode methodVersion solverAdapter solverAdapterVersion : String)

/-- The definitions that are stored while a request is served. -/
structure Definitions where
  versions : List DecisionProblemVersion
  problems : List DecisionProblem
  methods : List DecisionMethodDefinition

/-! ## Scenarios and executions -/

/-- What a scenario is about: its payload without the idempotency key. -/
structure ScenarioContent where
  (problemVersionId methodDefinitionId : UUID)
  scenarioName : String
  (scenarioHorizonStart scenarioHorizonEnd : Instant)
  timezone : String
  currencyCode : Option String

structure DecisionScenarioCreate where
  content : ScenarioContent
  idempotencyKey : String

/-- A reason for which a scenario is blocked. -/
structure GateReason where
  code : String
  inputId : Option UUID := none
  message : Option String := none

structure DecisionScenario where
  (id organizationId : UUID)
  content : ScenarioContent
  lifecycleStatus : ScenarioStatus
  (scenarioFingerprint idempotencyKey validationStatus : String)
  gateReasons : List GateReason
  createdByUserId : UUID

/-- A dictionary from strings to JSON values; dictionaries with the same entries are equal. -/
abbrev Payload := Finmap fun _ : String => Json

structure DecisionScenarioInputCreate where
  inputKind : String
  sourceId : UUID
  sourceFingerprint : String
  mappingConfidence : Option ℚ := none
  trustReadinessStatus : Option String := none
  observedAt : Option Instant := none
  inputPayload : Payload := ∅
  validationFlags : List String := []

structure DecisionScenarioInput where
  (id organizationId scenarioId : UUID)
  inputKind : String
  sourceId : UUID
  sourceFingerprint : String
  mappingConfidence : Option ℚ
  trustReadinessStatus : Option String
  observedAt : Option Instant
  inputPayload : Payload
  validationFlags : List String

structure DecisionExecutionCreate where
  idempotencyKey : String
  timeLimitSeconds : ℕ := 30
  randomSeed : Option ℤ := none

structure DecisionExecution where
  (id organizationId scenarioId : UUID)
  (methodCode methodVersion solverAdapter solverAdapterVersion : String)
  status : ExecutionStatus
  (inputFingerprint scenarioFingerprint idempotencyKey : String)
  randomSeed : Option ℤ
  timeLimitSeconds : ℕ
  objectiveValue : Option ℚ
  violations : List String
  gateReasons : List GateReason
  createdByUserId : UUID

/-- What a solver returns; its objective value is the number that its decimal text denotes. -/
structure SolverResult where
  status : ExecutionStatus
  objectiveValue : Option ℚ
  variableValues : List (String × Json)
  violations : List String

structure DecisionSolution where
  (id organizationId executionId : UUID)
  solverStatus : ExecutionStatus
  objectiveValue : Option ℚ
  variableValues : List (String × Json)
  violations : List String

structure DecisionAlternative where
  (id organizationId solutionId : UUID)
  rank : ℕ
  title : String
  (selected feasible : Bool)
  (expectedValue expectedCost : Option ℚ)
  currencyCode : Option String
  supportingEvidence : List (UUID × String)

/-! ## Recommendations and approvals -/

structure DecisionRecommendationCreate where
  (solutionId selectedAlternativeId : UUID)
  (title idempotencyKey : String)

structure DecisionRecommendation where
  (id organizationId solutionId selectedAlternativeId : UUID)
  approvedByApprovalId : Option UUID := none
  convertedActionId : Option UUID := none
  lifecycleStatus : RecommendationStatus
  (title idempotencyKey : String)
  createdByUserId : UUID

structure DecisionApprovalCreate where
  decision : ApprovalDecision
  idempotencyKey : String

structure DecisionApproval where
  (id organizationId recommendationId : UUID)
  decision : ApprovalDecision
  reviewerUserId : UUID
  (reviewerRole idempotencyKey : String)

structure DecisionOutcomeLink where
  (organizationId recommendationId operationalActionId : UUID)
  (verificationStatus reconciliationStatus expectedValueReference : String)

structure DecisionAuditEvent where
  organizationId : UUID
  (eventType entityType : String)
  (entityId actorUserId : UUID)
  (summary idempotencyKey : String)
  eventMetadata : List (String × String) := []

/-- The tables of the decisions, next to those of the operational actions. -/
structure Db where
  scenarios : List DecisionScenario := []
  inputs : List DecisionScenarioInput := []
  executions : List DecisionExecution := []
  solutions : List DecisionSolution := []
  alternatives : List DecisionAlternative := []
  recommendations : List DecisionRecommendation := []
  approvals : List DecisionApproval := []
  outcomeLinks : List DecisionOutcomeLink := []
  auditEvents : List DecisionAuditEvent := []
  actions : ActionService.Db := .empty

/-! ## Errors and surroundings -/

inductive DecisionError
  | service (message code : String) (status : ℕ)
  | integrity (constraint : String)
  | dataError (column : String)
  | action (error : ActionService.ActionServiceError)

/-- What the service calls: the digests of `_hash`, the text of an identifier and of a JSON value,
the certified solvers, and the order in which a query without one returns the inputs. -/
structure Env where
  scenarioDigest : ScenarioContent → String
  inputDigest : List String → String
  actionDigest : UUID → UUID → UUID → String
  idText : UUID → String
  valueText : Json → String
  solve : String → Payload → Except DecisionError SolverResult
  readOrder : List DecisionScenarioInput → List DecisionScenarioInput
  fingerprint : ActionService.Fingerprint

/-- A row of the organization with the identifier, or the error of `_get_tenant`. -/
def getTenant {α : Type} (rows : List α) (id organizationId : α → UUID) (org rowId : UUID)
    (code : String) : Except DecisionError α :=
  orFail (rows.find? fun row => id row = rowId ∧ organizationId row = org)
    (.service "decision record not found" code 404)

/-- A `Numeric(digits, scale)` column that may be null. -/
def nullableColumn (column : String) (digits scale : ℕ) : Option ℚ → Except DecisionError (Option ℚ)
  | none => .ok none
  | some x => (orFail (numeric digits scale x) (.dataError column)).map some

/-- `_audit`; an organization has one event for each idempotency key. -/
def audit (db : Db) (event : DecisionAuditEvent) : Option (List DecisionAuditEvent) :=
  Table.insert (fun a b => a.organizationId = b.organizationId ∧
    a.idempotencyKey = b.idempotencyKey) event db.auditEvents

end Intel4Ops.Decisions

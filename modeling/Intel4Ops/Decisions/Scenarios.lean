import Intel4Ops.Decisions.Model
import Mathlib.Data.List.Sort
import Mathlib.Data.String.Basic

/-!
# Scenarios, their inputs and their executions

`DecisionScenarioService`, `DecisionValidationService` and `DecisionExecutionService` of
`app/services/decision_intelligence_service.py`.
-/

namespace Intel4Ops.Decisions

open Lib Table

/-! ## Scenarios and inputs -/

/-- The published version is of a problem that the organization may use. -/
def checkVersion (definitions : Definitions) (org versionId : UUID) : Except DecisionError Unit :=
  do
  let version ← orFail (definitions.versions.find? fun v => v.id = versionId ∧ v.published)
    (.service "published decision problem version is required" "problem_version_not_ready" 409)
  ensure (∃ p ∈ definitions.problems, p.id = version.problemId ∧
      (p.ownerOrganizationId = none ∨ p.ownerOrganizationId = some org))
    (.service "problem version is outside tenant scope" "problem_outside_tenant" 403)

def checkMethod (definitions : Definitions) (org methodId : UUID) : Except DecisionError Unit :=
  ensure (∃ m ∈ definitions.methods, m.id = methodId ∧
      (m.ownerOrganizationId = none ∨ m.ownerOrganizationId = some org))
    (.service "decision method is outside tenant scope" "method_outside_tenant" 403)

/-- `DecisionScenarioService.create`. -/
def createScenario (env : Env) (definitions : Definitions) (db : Db) (org : UUID)
    (payload : DecisionScenarioCreate) (actor id : UUID) :
    Except DecisionError (Db × DecisionScenario) := do
  let fingerprint := env.scenarioDigest payload.content
  match db.scenarios.find? fun s =>
      s.organizationId = org ∧ s.idempotencyKey = payload.idempotencyKey with
  | some existing =>
    ensure (existing.scenarioFingerprint = fingerprint)
      (.service "idempotency key was reused with a different scenario" "idempotency_conflict" 409)
    return (db, existing)
  | none =>
    checkVersion definitions org payload.content.problemVersionId
    checkMethod definitions org payload.content.methodDefinitionId
    let scenario : DecisionScenario :=
      { id, organizationId := org, content := payload.content, lifecycleStatus := .draft
        scenarioFingerprint := fingerprint, idempotencyKey := payload.idempotencyKey
        validationStatus := "pending", gateReasons := [], createdByUserId := actor }
    let scenarios ← orFail (insert (fun a b => a.id = b.id) scenario db.scenarios)
      (.integrity "decision_scenarios")
    return ({ db with scenarios }, scenario)

def getScenario (db : Db) (org scenarioId : UUID) : Except DecisionError DecisionScenario :=
  getTenant db.scenarios (·.id) (·.organizationId) org scenarioId "scenario_not_found"

/-- `DecisionScenarioService.add_input`. -/
def addInput (db : Db) (org scenarioId : UUID) (payload : DecisionScenarioInputCreate) (id : UUID) :
    Except DecisionError (Db × DecisionScenarioInput) := do
  let scenario ← getScenario db org scenarioId
  ensure (scenario.lifecycleStatus = .draft ∨ scenario.lifecycleStatus = .blocked)
    (.service "scenario inputs are immutable after validation" "scenario_inputs_immutable" 409)
  let mappingConfidence ← nullableColumn "mapping_confidence" 6 5 payload.mappingConfidence
  let item : DecisionScenarioInput :=
    { id, organizationId := org, scenarioId, inputKind := payload.inputKind
      sourceId := payload.sourceId, sourceFingerprint := payload.sourceFingerprint
      mappingConfidence, trustReadinessStatus := payload.trustReadinessStatus
      observedAt := payload.observedAt, inputPayload := payload.inputPayload
      validationFlags := payload.validationFlags }
  let inputs ← orFail (insert (fun a b => a.id = b.id ∨ a.scenarioId = b.scenarioId ∧
      a.inputKind = b.inputKind ∧ a.sourceId = b.sourceId) item db.inputs)
    (.integrity "uq_decision_scenario_input_source")
  return ({ db with inputs }, item)

def inputsOf (db : Db) (org scenarioId : UUID) : List DecisionScenarioInput :=
  db.inputs.filter fun item => item.organizationId = org ∧ item.scenarioId = scenarioId

/-! ## Validation -/

def allowedReadiness : List String := ["supported", "ready", "conditionally_ready", "approved"]

/-- The flags that block a scenario, in alphabetical order. -/
def blockingFlags : List String :=
  ["ambiguous", "conflicting", "currency_mismatch", "infeasible_constraint",
    "insufficient_causal_state", "missing_economic_assumptions", "missing_required_fields",
    "stale", "superseded", "timezone_mismatch", "unit_mismatch", "unresolved"]

def inputReasons (content : ScenarioContent) (item : DecisionScenarioInput) : List GateReason :=
  (if item.mappingConfidence.any (· < 4 / 5) then
      [{ code := "mapping_confidence_below_threshold", inputId := some item.id }] else []) ++
    (if item.trustReadinessStatus.any (· ∉ allowedReadiness) then
      [{ code := "trust_readiness_blocked", inputId := some item.id }] else []) ++
    (blockingFlags.filter (· ∈ item.validationFlags)).map (fun flag =>
      { code := flag, inputId := some item.id, message := some "hard gate failed" }) ++
    if item.observedAt.any fun t =>
        ¬ (content.scenarioHorizonStart ≤ t ∧ t ≤ content.scenarioHorizonEnd) then
      [{ code := "outside_scenario_horizon", inputId := some item.id }] else []

def gateReasonsOf (content : ScenarioContent) (inputs : List DecisionScenarioInput) :
    List GateReason :=
  (if inputs.isEmpty then
      [{ code := "missing_inputs", message := some "scenario has no inputs" }] else []) ++
    inputs.flatMap (inputReasons content)

/-- What a validation with the given reasons writes. -/
def DecisionScenario.gated (reasons : List GateReason) (scenario : DecisionScenario) :
    DecisionScenario :=
  { scenario with
    gateReasons := reasons
    validationStatus := if reasons.isEmpty then "passed" else "blocked"
    lifecycleStatus := if reasons.isEmpty then .ready else .blocked }

/-- `DecisionValidationService.validate`. -/
def validate (env : Env) (db : Db) (org scenarioId : UUID) :
    Except DecisionError (Db × DecisionScenario) := do
  let scenario ← getScenario db org scenarioId
  let reasons := gateReasonsOf scenario.content (env.readOrder (inputsOf db org scenarioId))
  return ({ db with
    scenarios := update (·.id = scenarioId) (.gated reasons) db.scenarios },
    scenario.gated reasons)

/-! ## Execution -/

/-- The payload that is solved: the payloads of the inputs, each one updating those before it. -/
def solverPayload (inputs : List DecisionScenarioInput) : Payload :=
  mergeAll (inputs.map (·.inputPayload))

/-- `input_fingerprint`. -/
def inputFingerprint (env : Env) (inputs : List DecisionScenarioInput) : String :=
  env.inputDigest ((inputs.map (·.sourceFingerprint)).insertionSort (· ≤ ·))

def problemOf (definitions : Definitions) (versionId : UUID) : Option DecisionProblem := do
  let version ← definitions.versions.find? (·.id = versionId)
  definitions.problems.find? (·.id = version.problemId)

def methodOf (definitions : Definitions) (methodId : UUID) : Option DecisionMethodDefinition :=
  definitions.methods.find? (·.id = methodId)

/-- The statuses of an execution that a later one with the same fingerprints returns. -/
def duplicateStatuses : List ExecutionStatus :=
  [.queued, .validating, .running, .solvedOptimal, .solvedFeasible]

def findDuplicate (db : Db) (org : UUID) (scenarioFingerprint inputFingerprint : String) :
    Option DecisionExecution :=
  db.executions.find? fun e => e.organizationId = org ∧
    e.scenarioFingerprint = scenarioFingerprint ∧ e.inputFingerprint = inputFingerprint ∧
    e.status ∈ duplicateStatuses

/-- The row of an execution that a scenario is not ready for. -/
def blockedExecution (env : Env) (scenario : DecisionScenario) (payload : DecisionExecutionCreate)
    (actor id : UUID) : DecisionExecution where
  id
  organizationId := scenario.organizationId
  scenarioId := scenario.id
  methodCode := "blocked"
  methodVersion := "0.0.0"
  solverAdapter := "none"
  solverAdapterVersion := "none"
  status := .blocked
  inputFingerprint := env.inputDigest []
  scenarioFingerprint := scenario.scenarioFingerprint
  idempotencyKey := payload.idempotencyKey
  randomSeed := payload.randomSeed
  timeLimitSeconds := payload.timeLimitSeconds
  objectiveValue := none
  violations := []
  gateReasons := scenario.gateReasons
  createdByUserId := actor

def solvedExecution (scenario : DecisionScenario) (method : DecisionMethodDefinition)
    (inputFingerprint : String) (result : SolverResult) (payload : DecisionExecutionCreate)
    (actor id : UUID) : DecisionExecution where
  id
  organizationId := scenario.organizationId
  scenarioId := scenario.id
  methodCode := method.methodCode
  methodVersion := method.methodVersion
  solverAdapter := method.solverAdapter
  solverAdapterVersion := method.solverAdapterVersion
  status := result.status
  inputFingerprint
  scenarioFingerprint := scenario.scenarioFingerprint
  idempotencyKey := payload.idempotencyKey
  randomSeed := payload.randomSeed
  timeLimitSeconds := payload.timeLimitSeconds
  objectiveValue := result.objectiveValue
  violations := result.violations
  gateReasons := []
  createdByUserId := actor

def solutionOf (org executionId : UUID) (result : SolverResult) (id : UUID) : DecisionSolution where
  id
  organizationId := org
  executionId
  solverStatus := result.status
  objectiveValue := result.objectiveValue
  variableValues := result.variableValues
  violations := result.violations

/-- The alternative of a solution: one when the problem was solved, none otherwise. -/
def alternativesOf (scenario : DecisionScenario) (inputs : List DecisionScenarioInput)
    (solutionId : UUID) (result : SolverResult) (id : UUID) :
    Except DecisionError (List DecisionAlternative) :=
  if result.status = .solvedOptimal ∨ result.status = .solvedFeasible then do
    let expectedValue ← nullableColumn "expected_value" 38 12 result.objectiveValue
    return [{
      id, organizationId := scenario.organizationId, solutionId, rank := 1
      title := "Recommended governed solution", selected := true, feasible := true, expectedValue
      expectedCost := none, currencyCode := scenario.content.currencyCode
      supportingEvidence := inputs.map fun item => (item.id, item.sourceFingerprint) }]
  else .ok []

def insertExecution (db : Db) (execution : DecisionExecution) :
    Except DecisionError (List DecisionExecution) :=
  orFail (insert (fun a b => a.id = b.id) execution db.executions)
    (.integrity "decision_executions")

/-- The identifiers that one request draws. -/
structure Drawn where
  (first solution alternative : UUID)

/-- Solve the scenario, and record the execution with its solution. -/
def solveScenario (env : Env) (db : Db) (scenario : DecisionScenario) (problem : DecisionProblem)
    (method : DecisionMethodDefinition) (inputs : List DecisionScenarioInput)
    (payload : DecisionExecutionCreate) (actor : UUID) (drawn : Drawn) :
    Except DecisionError (Db × DecisionExecution) := do
  let result ← env.solve problem.useCaseCode (solverPayload inputs)
  let execution := solvedExecution scenario method (inputFingerprint env inputs) result payload
    actor drawn.first
  let executions ← insertExecution db execution
  let solution := solutionOf scenario.organizationId execution.id result drawn.solution
  let solutions ← orFail (insert (fun a b => a.id = b.id) solution db.solutions)
    (.integrity "decision_solutions")
  let new ← alternativesOf scenario inputs solution.id result drawn.alternative
  let alternatives ← orFail (insertAll (fun a b => a.id = b.id) new db.alternatives)
    (.integrity "decision_alternatives")
  let auditEvents ← orFail (audit db
      { organizationId := scenario.organizationId, eventType := "execution_completed"
        entityType := "decision_execution", entityId := execution.id, actorUserId := actor
        summary := "Decision execution completed with status " ++ execution.status.value
        idempotencyKey := "execution:" ++ env.idText execution.id ++ ":completed" })
    (.integrity "uq_decision_audit_idempotency")
  return ({ db with
    scenarios := update (·.id = scenario.id) ({ · with lifecycleStatus := .completed }) db.scenarios
    executions, solutions, alternatives, auditEvents }, execution)

/-- Execute a scenario that is ready, unless an execution with the same fingerprints exists. -/
def executeReady (env : Env) (definitions : Definitions) (db : Db) (scenario : DecisionScenario)
    (payload : DecisionExecutionCreate) (actor : UUID) (drawn : Drawn) :
    Except DecisionError (Db × DecisionExecution) := do
  let inputs := env.readOrder (inputsOf db scenario.organizationId scenario.id)
  let unavailable := .service "governed problem or method is unavailable"
    "governed_definition_unavailable" 409
  let problem ← orFail (problemOf definitions scenario.content.problemVersionId) unavailable
  let method ← orFail (methodOf definitions scenario.content.methodDefinitionId) unavailable
  match findDuplicate db scenario.organizationId scenario.scenarioFingerprint
      (inputFingerprint env inputs) with
  | some duplicate => return (db, duplicate)
  | none => solveScenario env db scenario problem method inputs payload actor drawn

/-- `DecisionExecutionService.execute`. -/
def execute (env : Env) (definitions : Definitions) (db : Db) (org scenarioId : UUID)
    (payload : DecisionExecutionCreate) (actor : UUID) (drawn : Drawn) :
    Except DecisionError (Db × DecisionExecution) := do
  let scenario ← orFail (db.scenarios.find? fun s => s.id = scenarioId ∧ s.organizationId = org)
    (.service "scenario not found" "scenario_not_found" 404)
  match db.executions.find? fun e =>
      e.organizationId = org ∧ e.idempotencyKey = payload.idempotencyKey with
  | some existing =>
    ensure (existing.scenarioId = scenarioId)
      (.service "idempotency key was reused for another scenario" "idempotency_conflict" 409)
    return (db, existing)
  | none =>
    if scenario.validationStatus ≠ "passed" ∨ scenario.lifecycleStatus ≠ .ready then
      let execution := blockedExecution env scenario payload actor drawn.first
      let executions ← insertExecution db execution
      return ({ db with executions }, execution)
    else executeReady env definitions db scenario payload actor drawn

end Intel4Ops.Decisions

import Intel4Ops.Economics.Engine
import Intel4Ops.Lib.Ident
import Intel4Ops.Lib.Service
import Intel4Ops.Lib.Table
import Mathlib.Data.List.Sort

/-!
# Recovery economics: the service

The tables of `app/models/economics.py` and the operations of `app/services/economics_service.py`:
opportunities with their scenarios, assumptions, calculations, prioritizations and decisions, the
frozen baselines, the overlap groups and the portfolio. Rows keep the columns that these operations
read or compute; the metadata of an opportunity and the requests that only write it or link it are
left out, as are the texts and payloads of decisions and audit events.
-/

namespace Intel4Ops.Economics

open Lib Lib.Decimal Table Prod

/-! ## Rows -/

structure RecoveryOpportunity where
  (id organizationId : UUID)
  (idempotencyKey economicSourceKey : String)
  status : OpportunityStatus
  priorityCategory : Option PriorityCategory
  selectedScenarioId : Option UUID
  currentBaselineVersion : Option Nat
  currencyCode : String

structure EconomicScenario where
  (id organizationId opportunityId : UUID)
  scenarioCode : String
  version : Nat
  currencyCode : String
  (lowerExposure grossExposure upperExposure addressabilityRate recoverabilityRate
    successProbability recoveryCost : ℚ)
  benefitPeriodDays : Option ℤ
  scenarioProbability : ℚ

structure EconomicAssumption where
  (id organizationId opportunityId : UUID)
  scenarioId : Option UUID
  assumptionCode : String
  version : Nat
  value : ℚ
  unit : String
  superseded : Bool

structure EconomicCalculation where
  (id organizationId opportunityId scenarioId : UUID)
  (idempotencyKey currencyCode : String)
  result : EconomicResult
  calculatedAt : Instant

structure PrioritizationAssessment where
  (id organizationId opportunityId calculationId : UUID)
  (idempotencyKey profileCode : String)
  result : PriorityResult
  calculatedAt : Instant

structure OpportunityOverlapGroup where
  (id organizationId : UUID)
  overlapKey : String

structure OpportunityOverlapMember where
  (id organizationId overlapGroupId opportunityId : UUID)
  parentOpportunityId : Option UUID
  allocationPercentage : ℚ
  inclusionStatus : InclusionStatus
  deriving DecidableEq

structure OpportunityDecision where
  (id organizationId opportunityId : UUID)
  idempotencyKey : String
  priorStatus : Option OpportunityStatus
  decision : OpportunityStatus
  actorRole : String
  scenarioId : Option UUID
  baselineVersion : Option Nat

/-- An audit event; its key is what can clash. -/
structure EconomicAuditEvent where
  opportunityId : UUID
  (eventType idempotencyKey : String)

/-- `economic_snapshot`. -/
structure EconomicSnapshot where
  (grossExposure addressableExposure expectedRecoverableValue probabilityAdjustedValue recoveryCost
    expectedNetBenefit : ℚ)
  expectedRoi : Option ℚ
  priorityScore : ℚ
  priorityCategory : PriorityCategory
  deriving DecidableEq

/-- One entry of `assumption_versions`. -/
structure AssumptionVersion where
  id : UUID
  code : String
  version : Nat
  value : ℚ
  unit : String
  deriving DecidableEq

structure EconomicBaselineVersion where
  (id organizationId opportunityId scenarioId calculationId prioritizationId : UUID)
  version : Nat
  (idempotencyKey currencyCode : String)
  economicSnapshot : EconomicSnapshot
  assumptionVersions : List AssumptionVersion
  approvedByUserId : UUID
  deriving DecidableEq

/-- The stored tables, each in insertion order. -/
structure Db where
  opportunities : List RecoveryOpportunity
  scenarios : List EconomicScenario
  assumptions : List EconomicAssumption
  calculations : List EconomicCalculation
  prioritizations : List PrioritizationAssessment
  overlapGroups : List OpportunityOverlapGroup
  overlapMembers : List OpportunityOverlapMember
  decisions : List OpportunityDecision
  auditEvents : List EconomicAuditEvent
  baselines : List EconomicBaselineVersion

def Db.empty : Db := ⟨[], [], [], [], [], [], [], [], [], []⟩

/-! ## Payloads -/

structure OpportunityCreate where
  (idempotencyKey economicSourceKey currencyCode : String)

/-- A number between zero and one. -/
abbrev UnitInterval := { x : ℚ // 0 ≤ x ∧ x ≤ 1 }

structure ScenarioCreate where
  (scenarioCode currencyCode : String)
  (lowerExposure grossExposure upperExposure : ℚ)
  (addressabilityRate recoverabilityRate successProbability : UnitInterval)
  recoveryCost : ℚ
  benefitPeriodDays : Option ℤ
  scenarioProbability : UnitInterval
  lower_nonneg : 0 ≤ lowerExposure
  bounds : lowerExposure ≤ grossExposure ∧ grossExposure ≤ upperExposure
  cost_nonneg : 0 ≤ recoveryCost
  days_pos : ∀ days ∈ benefitPeriodDays, 0 < days

structure AssumptionCreate where
  scenarioId : Option UUID
  assumptionCode : String
  value : ℚ
  unit : String
  currencyCode : Option String

structure CalculateCreate where
  scenarioId : UUID
  idempotencyKey : String

structure PrioritizeCreate where
  calculationId : UUID
  (idempotencyKey profileCode : String)
  (urgencyScore confidenceScore feasibilityScore strategicAlignmentScore riskScore : UnitInterval)
  (dependencyReady resourceReady : Bool)

structure OverlapMemberCreate where
  opportunityId : UUID
  parentOpportunityId : Option UUID
  allocationPercentage : UnitInterval
  inclusionStatus : InclusionStatus

structure DecisionCreate where
  decision : OpportunityStatus
  idempotencyKey : String
  (scenarioId prioritizationId : Option UUID)

/-! ## Failures and columns -/

inductive EconomicsServiceError
  | service (code message : String) (status : Nat)
  | engine (error : EconomicsError)
  | dataError (column : String)
  | integrity (constraint : String)

/-- A failure with its code, text and status. -/
def fail (code message : String) (status : Nat := 422) : EconomicsServiceError :=
  .service code message status

/-- A failure of the engine, or its result. -/
def computed {α : Type} : Except EconomicsError α → Except EconomicsServiceError α
  | .ok a => .ok a
  | .error e => .error (.engine e)

/-- A `String(n)` column. -/
def stringColumn (column : String) (n : Nat) (s : String) : Except EconomicsServiceError Unit :=
  ensure (s.length ≤ n) (.dataError column)

/-- A `Numeric(digits, scale)` column. -/
def numericColumn (column : String) (digits scale : Nat) (x : ℚ) : Except EconomicsServiceError ℚ :=
  orFail (numeric digits scale x) (.dataError column)

/-- A `Numeric(digits, scale)` column that may be null. -/
def nullableColumn (column : String) (digits scale : Nat) :
    Option ℚ → Except EconomicsServiceError (Option ℚ)
  | none => .ok none
  | some x => (numericColumn column digits scale x).map some

/-- An `Integer` column that may be null. -/
def integerColumn (column : String) (x : Option ℤ) : Except EconomicsServiceError Unit :=
  ensure (∀ n ∈ x, -2147483648 ≤ n ∧ n ≤ 2147483647) (.dataError column)

/-! ## Common steps -/

def RecoveryOpportunity.Clash (a b : RecoveryOpportunity) : Prop :=
  a.id = b.id ∨ a.organizationId = b.organizationId ∧
    (a.idempotencyKey = b.idempotencyKey ∨ a.economicSourceKey = b.economicSourceKey)

instance (a b : RecoveryOpportunity) : Decidable (a.Clash b) := inferInstanceAs (Decidable (_ ∨ _))

def OpportunityDecision.Clash (a b : OpportunityDecision) : Prop :=
  a.id = b.id ∨ a.opportunityId = b.opportunityId ∧ a.idempotencyKey = b.idempotencyKey

instance (a b : OpportunityDecision) : Decidable (a.Clash b) := inferInstanceAs (Decidable (_ ∨ _))

/-- `_audit`. -/
def audit (db : Db) (opportunityId : UUID) (eventType key : String) :
    Except EconomicsServiceError Db := do
  stringColumn "idempotency_key" 255 key
  let auditEvents ← orFail (insert
      (fun a b => a.opportunityId = b.opportunityId ∧ a.idempotencyKey = b.idempotencyKey)
      ⟨opportunityId, eventType, key⟩ db.auditEvents)
    (.integrity "uq_economic_audit_idempotency")
  return { db with auditEvents }

/-- `_event`. -/
def event (db : Db) (decision : OpportunityDecision) : Except EconomicsServiceError Db := do
  stringColumn "idempotency_key" 255 decision.idempotencyKey
  stringColumn "actor_role" 50 decision.actorRole
  ensure (∀ id ∈ decision.scenarioId, ∃ s ∈ db.scenarios, s.id = id)
    (.integrity "opportunity_decisions_scenario_id_fkey")
  let decisions ← orFail (insert OpportunityDecision.Clash decision db.decisions)
    (.integrity "uq_opportunity_decision_idempotency")
  return { db with decisions }

/-- Write `f` to the opportunity. -/
def writeOpportunity (db : Db) (id : UUID) (f : RecoveryOpportunity → RecoveryOpportunity) : Db :=
  { db with opportunities := update (·.id = id) f db.opportunities }

def get (db : Db) (org opportunityId : UUID) : Except EconomicsServiceError RecoveryOpportunity :=
  orFail (db.opportunities.find? fun o => o.id = opportunityId ∧ o.organizationId = org)
    (fail "NOT_FOUND" "Recovery opportunity not found" 404)

/-- `_require_mutable`. -/
def requireMutable (opportunity : RecoveryOpportunity) : Except EconomicsServiceError Unit :=
  ensure (opportunity.status ≠ .approvedForAction) (fail "APPROVED_BASELINE_IMMUTABLE"
    "Approved economics cannot be changed; create a controlled recalculation")

/-! ## Opportunities -/

def create (db : Db) (org : UUID) (payload : OpportunityCreate) (ids : Nat → UUID) :
    Except EconomicsServiceError (Db × RecoveryOpportunity) :=
  match db.opportunities.find? fun o => o.organizationId = org ∧
    (o.idempotencyKey = payload.idempotencyKey ∨
      o.economicSourceKey = payload.economicSourceKey) with
  | some existing => .ok (db, existing)
  | none => do
    let opportunity : RecoveryOpportunity :=
      { id := ids 0, organizationId := org, idempotencyKey := payload.idempotencyKey
        economicSourceKey := payload.economicSourceKey, status := .draft
        priorityCategory := none, selectedScenarioId := none, currentBaselineVersion := none
        currencyCode := payload.currencyCode }
    let opportunities ← orFail
      (insert RecoveryOpportunity.Clash opportunity db.opportunities)
      (.integrity "recovery_opportunities")
    let db ← event { db with opportunities }
      { id := ids 1, organizationId := org, opportunityId := opportunity.id
        idempotencyKey := "created:" ++ payload.idempotencyKey, priorStatus := none
        decision := .draft, actorRole := "system", scenarioId := none, baselineVersion := none }
    let db ← audit db opportunity.id "opportunity_created"
      ("audit:created:" ++ payload.idempotencyKey)
    return (db, opportunity)

/-! ## Scenarios and assumptions -/

/-- The row of a new scenario as its columns store it. Rounding keeps the order of the amounts and
the bounds of the rates, so the check constraints hold. -/
def newScenario (org opportunityId id : UUID) (version : Nat) (payload : ScenarioCreate) :
    Except EconomicsServiceError EconomicScenario := do
  stringColumn "scenario_code" 40 payload.scenarioCode
  integerColumn "benefit_period_days" payload.benefitPeriodDays
  let lowerExposure ← numericColumn "lower_exposure" 38 12 payload.lowerExposure
  let grossExposure ← numericColumn "gross_exposure" 38 12 payload.grossExposure
  let upperExposure ← numericColumn "upper_exposure" 38 12 payload.upperExposure
  let addressabilityRate ← numericColumn "addressability_rate" 8 7 payload.addressabilityRate
  let recoverabilityRate ← numericColumn "recoverability_rate" 8 7 payload.recoverabilityRate
  let successProbability ← numericColumn "success_probability" 8 7 payload.successProbability
  let recoveryCost ← numericColumn "recovery_cost" 38 12 payload.recoveryCost
  let scenarioProbability ← numericColumn "scenario_probability" 8 7 payload.scenarioProbability
  return {
    id, organizationId := org, opportunityId, scenarioCode := payload.scenarioCode, version
    currencyCode := payload.currencyCode, lowerExposure, grossExposure, upperExposure
    addressabilityRate, recoverabilityRate, successProbability, recoveryCost
    benefitPeriodDays := payload.benefitPeriodDays, scenarioProbability }

def createScenario (db : Db) (org opportunityId : UUID) (payload : ScenarioCreate) (id : UUID) :
    Except EconomicsServiceError (Db × EconomicScenario) := do
  let opportunity ← get db org opportunityId
  requireMutable opportunity
  ensure (payload.currencyCode = opportunity.currencyCode)
    (fail "CURRENCY_MISMATCH" "Scenario currency must match opportunity currency")
  let version := ((db.scenarios.filter fun s =>
    s.opportunityId = opportunityId ∧ s.scenarioCode = payload.scenarioCode).map
      (·.version)).foldl max 0 + 1
  let row ← newScenario org opportunityId id version payload
  let scenarios ← orFail (insert (fun a b => a.id = b.id ∨ a.opportunityId = b.opportunityId ∧
      a.scenarioCode = b.scenarioCode ∧ a.version = b.version) row db.scenarios)
    (.integrity "uq_scenario_version")
  let db ← audit { db with scenarios } opportunityId "scenario_created"
    ("audit:scenario:" ++ payload.scenarioCode ++ ":" ++ toString version)
  return (db, row)

def getScenario (db : Db) (org opportunityId scenarioId : UUID) :
    Except EconomicsServiceError EconomicScenario := do
  let _ ← get db org opportunityId
  orFail (db.scenarios.find? fun s => s.id = scenarioId ∧ s.opportunityId = opportunityId ∧
      s.organizationId = org) (fail "SCENARIO_NOT_FOUND" "Economic scenario not found" 404)

/-- The scenario that an assumption names belongs to the opportunity. -/
def requireScenario (db : Db) (org opportunityId : UUID) :
    Option UUID → Except EconomicsServiceError Unit
  | none => .ok ()
  | some scenarioId => (getScenario db org opportunityId scenarioId).map fun _ => ()

def activeAssumptions (db : Db) (opportunityId : UUID) : List EconomicAssumption :=
  db.assumptions.filter fun a => a.opportunityId = opportunityId ∧ a.superseded = false

/-- The active assumption of the highest version with this code. -/
def previousAssumption (db : Db) (opportunityId : UUID) (code : String) :
    Option EconomicAssumption :=
  (((activeAssumptions db opportunityId).filter (·.assumptionCode = code)).insertionSort
    fun a b => b.version ≤ a.version).head?

/-- `superseded = True`, on the row that the new version replaces. -/
def supersede (db : Db) : Option EconomicAssumption → List EconomicAssumption
  | none => db.assumptions
  | some previous =>
    update (·.id = previous.id) (fun a => { a with superseded := true }) db.assumptions

def addAssumption (db : Db) (org opportunityId : UUID) (payload : AssumptionCreate) (id : UUID) :
    Except EconomicsServiceError (Db × EconomicAssumption) := do
  let opportunity ← get db org opportunityId
  requireMutable opportunity
  requireScenario db org opportunityId payload.scenarioId
  ensure (∀ currency ∈ payload.currencyCode, currency = opportunity.currencyCode)
    (fail "CURRENCY_MISMATCH" "Assumption currency must match opportunity currency")
  let previous := previousAssumption db opportunityId payload.assumptionCode
  let version := (previous.map (·.version)).getD 0 + 1
  let value ← numericColumn "value" 38 12 payload.value
  let row : EconomicAssumption :=
    { id, organizationId := org, opportunityId, scenarioId := payload.scenarioId
      assumptionCode := payload.assumptionCode, version, value, unit := payload.unit
      superseded := false }
  let assumptions ← orFail (insert (fun a b => a.id = b.id ∨
      a.opportunityId = b.opportunityId ∧ a.assumptionCode = b.assumptionCode ∧
        a.version = b.version) row (supersede db previous)) (.integrity "uq_assumption_version")
  let db ← audit { db with assumptions } opportunityId "assumption_version_created"
    ("audit:assumption:" ++ payload.assumptionCode ++ ":" ++ toString version)
  return (db, row)

def reviseAssumption (db : Db) (org opportunityId assumptionId : UUID) (payload : AssumptionCreate)
    (id : UUID) : Except EconomicsServiceError (Db × EconomicAssumption) := do
  let previous ← orFail (db.assumptions.find? fun a => a.id = assumptionId ∧
      a.opportunityId = opportunityId ∧ a.organizationId = org ∧ a.superseded = false)
    (fail "ASSUMPTION_NOT_FOUND" "Active tenant assumption not found" 404)
  ensure (payload.assumptionCode = previous.assumptionCode)
    (fail "ASSUMPTION_CODE_MISMATCH" "A revision must preserve the assumption code")
  addAssumption db org opportunityId payload id

/-! ## Calculations and prioritizations -/

/-- The economics of a scenario as the columns of a calculation store them. -/
def scenarioEconomics (scenario : EconomicScenario) : Except EconomicsServiceError EconomicResult :=
  do
  let result ← computed (calculateEconomics context
    { grossExposure := scenario.grossExposure, addressabilityRate := scenario.addressabilityRate
      recoverabilityRate := scenario.recoverabilityRate
      successProbability := scenario.successProbability, recoveryCost := scenario.recoveryCost
      benefitPeriodDays := scenario.benefitPeriodDays })
  let grossExposure ← numericColumn "gross_exposure" 38 12 result.grossExposure
  let addressableExposure ← numericColumn "addressable_exposure" 38 12 result.addressableExposure
  let expectedRecoverableValue ←
    numericColumn "expected_recoverable_value" 38 12 result.expectedRecoverableValue
  let probabilityAdjustedValue ←
    numericColumn "probability_adjusted_value" 38 12 result.probabilityAdjustedValue
  let recoveryCost ← numericColumn "recovery_cost" 38 12 result.recoveryCost
  let expectedNetBenefit ← numericColumn "expected_net_benefit" 38 12 result.expectedNetBenefit
  let expectedRoi ← nullableColumn "expected_roi" 38 12 result.expectedRoi
  let paybackPeriodDays ← nullableColumn "payback_period_days" 18 6 result.paybackPeriodDays
  return { result with
    grossExposure, addressableExposure, expectedRecoverableValue, probabilityAdjustedValue
    recoveryCost, expectedNetBenefit, expectedRoi, paybackPeriodDays }

def calculate (db : Db) (org opportunityId : UUID) (payload : CalculateCreate) (id : UUID)
    (now : Instant) : Except EconomicsServiceError (Db × EconomicCalculation) := do
  let _ ← get db org opportunityId
  let scenario ← getScenario db org opportunityId payload.scenarioId
  match db.calculations.find? fun c => c.opportunityId = opportunityId ∧
    c.idempotencyKey = payload.idempotencyKey with
  | some existing => return (db, existing)
  | none =>
    let result ← scenarioEconomics scenario
    let row : EconomicCalculation :=
      { id, organizationId := org, opportunityId, scenarioId := scenario.id
        idempotencyKey := payload.idempotencyKey, currencyCode := scenario.currencyCode, result
        calculatedAt := now }
    let calculations ← orFail (insert (fun a b => a.id = b.id ∨
        a.opportunityId = b.opportunityId ∧ a.idempotencyKey = b.idempotencyKey) row
        db.calculations) (.integrity "uq_economic_calculation_idempotency")
    let db ← audit (writeOpportunity { db with calculations } opportunityId fun o =>
        { o with selectedScenarioId := some scenario.id }) opportunityId "calculation_run"
      ("audit:calculation:" ++ payload.idempotencyKey)
    return (db, row)

/-- The calculation that a prioritization is based on. -/
def getCalculation (db : Db) (org opportunityId calculationId : UUID) :
    Except EconomicsServiceError EconomicCalculation :=
  orFail (db.calculations.find? fun c => c.id = calculationId ∧ c.opportunityId = opportunityId ∧
      c.organizationId = org)
    (fail "CALCULATION_NOT_FOUND" "Tenant economic calculation not found" 404)

/-- The priority that the request gives to a calculation, as its columns store it. -/
def requestedPriority (calculation : EconomicCalculation) (payload : PrioritizeCreate) :
    Except EconomicsServiceError PriorityResult := do
  let weights ← orFail (weightingProfiles payload.profileCode)
    (fail "PROFILE_NOT_FOUND" "Unsupported prioritization profile" 404)
  let result ← computed (calculatePriority context
    { probabilityAdjustedValue := calculation.result.probabilityAdjustedValue
      expectedNetBenefit := calculation.result.expectedNetBenefit
      expectedRoi := calculation.result.expectedRoi
      paybackPeriodDays := calculation.result.paybackPeriodDays
      urgencyScore := payload.urgencyScore, confidenceScore := payload.confidenceScore
      feasibilityScore := payload.feasibilityScore
      strategicAlignmentScore := payload.strategicAlignmentScore, riskScore := payload.riskScore
      dependencyReady := payload.dependencyReady, resourceReady := payload.resourceReady } weights)
  let score ← numericColumn "priority_score" 8 2 result.score
  return { result with score }

def prioritize (db : Db) (org opportunityId : UUID) (payload : PrioritizeCreate) (id : UUID)
    (now : Instant) : Except EconomicsServiceError (Db × PrioritizationAssessment) := do
  let _ ← get db org opportunityId
  let calculation ← getCalculation db org opportunityId payload.calculationId
  match db.prioritizations.find? fun p => p.opportunityId = opportunityId ∧
    p.idempotencyKey = payload.idempotencyKey with
  | some existing => return (db, existing)
  | none =>
    let result ← requestedPriority calculation payload
    let row : PrioritizationAssessment :=
      { id, organizationId := org, opportunityId, calculationId := calculation.id
        idempotencyKey := payload.idempotencyKey, profileCode := payload.profileCode, result
        calculatedAt := now }
    let prioritizations ← orFail (insert (fun a b => a.id = b.id ∨
        a.opportunityId = b.opportunityId ∧ a.idempotencyKey = b.idempotencyKey) row
        db.prioritizations) (.integrity "uq_prioritization_idempotency")
    let db ← audit (writeOpportunity { db with prioritizations } opportunityId fun o =>
        { o with priorityCategory := some result.category }) opportunityId "prioritization_run"
      ("audit:priority:" ++ payload.idempotencyKey)
    return (db, row)

/-! ## Overlap groups -/

def createOverlapGroup (db : Db) (org : UUID) (overlapKey : String) (id : UUID) :
    Except EconomicsServiceError (Db × OpportunityOverlapGroup) :=
  match db.overlapGroups.find? fun g => g.organizationId = org ∧ g.overlapKey = overlapKey with
  | some existing => .ok (db, existing)
  | none => do
    let row : OpportunityOverlapGroup := { id, organizationId := org, overlapKey }
    let overlapGroups ← orFail (insert (fun a b => a.id = b.id ∨
        a.organizationId = b.organizationId ∧ a.overlapKey = b.overlapKey) row db.overlapGroups)
      (.integrity "uq_opportunity_overlap_group_key")
    return ({ db with overlapGroups }, row)

/-- The parent that a member names is an opportunity of the organization. -/
def requireParent (db : Db) (org : UUID) : Option UUID → Except EconomicsServiceError Unit
  | none => .ok ()
  | some parentId => (get db org parentId).map fun _ => ()

def addOverlapMember (db : Db) (org groupId : UUID) (payload : OverlapMemberCreate) (id : UUID) :
    Except EconomicsServiceError (Db × OpportunityOverlapMember) := do
  let group ← orFail (db.overlapGroups.find? fun g => g.id = groupId ∧ g.organizationId = org)
    (fail "OVERLAP_NOT_FOUND" "Overlap group not found" 404)
  let _ ← get db org payload.opportunityId
  requireParent db org payload.parentOpportunityId
  match db.overlapMembers.find? fun m => m.overlapGroupId = groupId ∧
    m.opportunityId = payload.opportunityId with
  | some existing => return (db, existing)
  | none =>
    let allocationPercentage ←
      numericColumn "allocation_percentage" 8 7 payload.allocationPercentage
    ensure (0 ≤ allocationPercentage ∧ allocationPercentage ≤ 1)
      (.integrity "ck_overlap_member_allocation")
    let row : OpportunityOverlapMember :=
      { id, organizationId := org, overlapGroupId := group.id
        opportunityId := payload.opportunityId
        parentOpportunityId := payload.parentOpportunityId, allocationPercentage
        inclusionStatus := payload.inclusionStatus }
    let overlapMembers ← orFail (insert (fun a b => a.id = b.id ∨
        a.overlapGroupId = b.overlapGroupId ∧ a.opportunityId = b.opportunityId) row
        db.overlapMembers) (.integrity "uq_overlap_member")
    let db ← audit { db with overlapMembers } payload.opportunityId "overlap_registered"
      ("audit:overlap:" ++ toString groupId ++ ":" ++ toString payload.opportunityId)
    return (db, row)

/-! ## Decisions -/

/-- The calculation of a scenario behind a prioritization. -/
def scenarioCalculation (db : Db) (org calculationId scenarioId : UUID) :
    Except EconomicsServiceError EconomicCalculation :=
  orFail (db.calculations.find? fun c => c.id = calculationId ∧ c.scenarioId = scenarioId ∧
      c.organizationId = org)
    (fail "CALCULATION_NOT_FOUND" "Selected scenario calculation not found" 404)

/-- The prioritization that a decision names. -/
def getPrioritization (db : Db) (org opportunityId prioritizationId : UUID) :
    Except EconomicsServiceError PrioritizationAssessment :=
  orFail (db.prioritizations.find? fun p => p.id = prioritizationId ∧
      p.opportunityId = opportunityId ∧ p.organizationId = org)
    (fail "PRIORITY_NOT_FOUND" "Tenant prioritization not found" 404)

/-- The scenario and the prioritization that a decision has to name. -/
def requiredInputs (payload : DecisionCreate) : Except EconomicsServiceError (UUID × UUID) :=
  match payload.scenarioId, payload.prioritizationId with
  | some scenarioId, some prioritizationId => .ok (scenarioId, prioritizationId)
  | _, _ => .error (fail "ECONOMIC_INPUTS_REQUIRED"
      "Scenario and prioritization are required for economic qualification")

/-- `_required_economics`. -/
def requiredEconomics (db : Db) (org opportunityId : UUID) (payload : DecisionCreate) :
    Except EconomicsServiceError
      (EconomicScenario × EconomicCalculation × PrioritizationAssessment) := do
  let inputs ← requiredInputs payload
  let scenario ← getScenario db org opportunityId inputs.1
  let prioritization ← getPrioritization db org opportunityId inputs.2
  let calculation ← scenarioCalculation db org prioritization.calculationId scenario.id
  return (scenario, calculation, prioritization)

/-- The entry of a baseline for an assumption. -/
def EconomicAssumption.frozen (a : EconomicAssumption) : AssumptionVersion :=
  { id := a.id, code := a.assumptionCode, version := a.version, value := a.value, unit := a.unit }

/-- The snapshot of a baseline. -/
def economicSnapshot (result : EconomicResult) (priority : PriorityResult) : EconomicSnapshot :=
  { grossExposure := result.grossExposure, addressableExposure := result.addressableExposure
    expectedRecoverableValue := result.expectedRecoverableValue
    probabilityAdjustedValue := result.probabilityAdjustedValue
    recoveryCost := result.recoveryCost, expectedNetBenefit := result.expectedNetBenefit
    expectedRoi := result.expectedRoi, priorityScore := priority.score
    priorityCategory := priority.category }

/-- `_freeze_baseline`. -/
def freezeBaseline (db : Db) (opportunity : RecoveryOpportunity) (scenario : EconomicScenario)
    (calculation : EconomicCalculation) (prioritization : PrioritizationAssessment)
    (actor : UUID) (key : String) (id : UUID) :
    Except EconomicsServiceError (Db × EconomicBaselineVersion) := do
  let version := opportunity.currentBaselineVersion.getD 0 + 1
  let baseline : EconomicBaselineVersion :=
    { id, organizationId := opportunity.organizationId, opportunityId := opportunity.id
      scenarioId := scenario.id, calculationId := calculation.id
      prioritizationId := prioritization.id, version, idempotencyKey := key
      currencyCode := calculation.currencyCode
      economicSnapshot := economicSnapshot calculation.result prioritization.result
      assumptionVersions := (activeAssumptions db opportunity.id).map (·.frozen)
      approvedByUserId := actor }
  let baselines ← orFail (insert (fun a b => a.id = b.id ∨
      a.opportunityId = b.opportunityId ∧
        (a.version = b.version ∨ a.idempotencyKey = b.idempotencyKey)) baseline db.baselines)
    (.integrity "uq_economic_baseline_version")
  return (writeOpportunity { db with baselines } opportunity.id fun o =>
    { o with currentBaselineVersion := some version, selectedScenarioId := some scenario.id },
    baseline)

/-- Record a decision: the new status, the decision and its audit event. -/
def recordDecision (db : Db) (opportunity : RecoveryOpportunity) (payload : DecisionCreate)
    (actorRole : String) (baseline : Option EconomicBaselineVersion) (id : UUID) :
    Except EconomicsServiceError
      (Db × OpportunityDecision × Option EconomicBaselineVersion) := do
  let decision : OpportunityDecision :=
    { id, organizationId := opportunity.organizationId, opportunityId := opportunity.id
      idempotencyKey := payload.idempotencyKey, priorStatus := some opportunity.status
      decision := payload.decision, actorRole, scenarioId := payload.scenarioId
      baselineVersion := baseline.map (·.version) }
  let db ← event (writeOpportunity db opportunity.id fun o =>
    { o with status := payload.decision }) decision
  let db ← audit db opportunity.id "decision_recorded" ("audit:decision:" ++ payload.idempotencyKey)
  return (db, decision, baseline)

/-- `require_transition`, with the engine's text as a conflict. -/
def requireDecision (current requested : OpportunityStatus) : Except EconomicsServiceError Unit :=
  match requireTransition current requested with
  | .ok () => .ok ()
  | .error (.rule message) => .error (fail "INVALID_TRANSITION" message 409)
  | .error e => .error (.engine e)

/-- The part of `decide` behind the replay check. -/
def decideNew (db : Db) (org : UUID) (opportunity : RecoveryOpportunity) (payload : DecisionCreate)
    (actor : UUID) (actorRole : String) (ids : Nat → UUID) :
    Except EconomicsServiceError
      (Db × OpportunityDecision × Option EconomicBaselineVersion) := do
  requireDecision opportunity.status payload.decision
  match payload.decision with
  | .economicallyQualified =>
    let _ ← requiredEconomics db org opportunity.id payload
    recordDecision db opportunity payload actorRole none (ids 0)
  | .approvedForAction =>
    let (scenario, calculation, prioritization) ← requiredEconomics db org opportunity.id payload
    ensure (actorRole = "organization_admin" ∨ actorRole = "platform_admin")
      (fail "APPROVAL_FORBIDDEN" "Organization administrator approval required" 403)
    let (db, baseline) ← freezeBaseline db opportunity scenario calculation prioritization actor
      payload.idempotencyKey (ids 1)
    recordDecision db opportunity payload actorRole (some baseline) (ids 0)
  | _ => recordDecision db opportunity payload actorRole none (ids 0)

def decide (db : Db) (org opportunityId : UUID) (payload : DecisionCreate) (actor : UUID)
    (actorRole : String) (ids : Nat → UUID) :
    Except EconomicsServiceError
      (Db × OpportunityDecision × Option EconomicBaselineVersion) := do
  let opportunity ← get db org opportunityId
  match db.decisions.find? fun d => d.opportunityId = opportunityId ∧
    d.idempotencyKey = payload.idempotencyKey with
  | some existing => return (db, existing, none)
  | none => decideNew db org opportunity payload actor actorRole ids

/-! ## Requests -/

inductive Request
  | create (payload : OpportunityCreate)
  | createScenario (opportunityId : UUID) (payload : ScenarioCreate)
  | addAssumption (opportunityId : UUID) (payload : AssumptionCreate)
  | reviseAssumption (opportunityId assumptionId : UUID) (payload : AssumptionCreate)
  | calculate (opportunityId : UUID) (payload : CalculateCreate)
  | prioritize (opportunityId : UUID) (payload : PrioritizeCreate)
  | createOverlapGroup (overlapKey : String)
  | addOverlapMember (groupId : UUID) (payload : OverlapMemberCreate)
  | decide (opportunityId : UUID) (payload : DecisionCreate)

/-- A request with its actor, the time it is served and the identifiers drawn. -/
structure Call where
  (organizationId actor : UUID)
  actorRole : String
  now : Instant
  ids : Nat → UUID
  request : Request

inductive Reply
  | opportunity (row : RecoveryOpportunity)
  | scenario (row : EconomicScenario)
  | assumption (row : EconomicAssumption)
  | calculation (row : EconomicCalculation)
  | prioritization (row : PrioritizationAssessment)
  | group (row : OpportunityOverlapGroup)
  | member (row : OpportunityOverlapMember)
  | decision (row : OpportunityDecision × Option EconomicBaselineVersion)

/-- Serve one request in a transaction of its own. -/
def serve : Service Db Call Reply EconomicsServiceError := fun db call =>
  let org := call.organizationId
  match call.request with
  | .create payload => (create db org payload call.ids).map (map id .opportunity)
  | .createScenario opportunityId payload =>
    (createScenario db org opportunityId payload (call.ids 0)).map (map id .scenario)
  | .addAssumption opportunityId payload =>
    (addAssumption db org opportunityId payload (call.ids 0)).map (map id .assumption)
  | .reviseAssumption opportunityId assumptionId payload =>
    (reviseAssumption db org opportunityId assumptionId payload (call.ids 0)).map
      (map id .assumption)
  | .calculate opportunityId payload =>
    (calculate db org opportunityId payload (call.ids 0) call.now).map (map id .calculation)
  | .prioritize opportunityId payload =>
    (prioritize db org opportunityId payload (call.ids 0) call.now).map (map id .prioritization)
  | .createOverlapGroup overlapKey =>
    (createOverlapGroup db org overlapKey (call.ids 0)).map (map id .group)
  | .addOverlapMember groupId payload =>
    (addOverlapMember db org groupId payload (call.ids 0)).map (map id .member)
  | .decide opportunityId payload =>
    (decide db org opportunityId payload call.actor call.actorRole call.ids).map (map id .decision)

end Intel4Ops.Economics

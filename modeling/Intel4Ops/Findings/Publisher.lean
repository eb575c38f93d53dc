import Intel4Ops.Lib.Except
import Intel4Ops.Lib.Ident
import Intel4Ops.Lib.Json
import Intel4Ops.Lib.Service
import Intel4Ops.Lib.Table
import Mathlib.Data.Finset.Basic
import Mathlib.Data.List.Sort
import Mathlib.Data.Prod.Lex

/-!
# Governed finding publication

`services/governed_finding_publisher.py` and the publication pipeline of
`services/finding_platform_service.py` behind it: the readiness gate with its one corrected path,
the execution row, the candidate contract of `schemas/findings.py` and the re-validation against the
stored rows. A raised call leaves in its session what it flushed before it was raised.
-/

namespace Intel4Ops.Findings

open Lib

/-! ## Enumerations -/

inductive AnalyticalLevel
  | arithmetic | statistical | forecasting | reliability | predictive | optimization
  | economicRecovery
  deriving DecidableEq

inductive ReadinessStatus
  | ready | readyWithWarnings | insufficientData | blocked

/-- The statuses under which publication may point at a readiness decision. -/
def ReadinessStatus.isReady : ReadinessStatus → Bool
  | ready | readyWithWarnings => true
  | insufficientData | blocked => false

inductive TrustAssessmentStatus
  | pending | running | completed | completedWithWarnings | failed | cancelled

def TrustAssessmentStatus.isCompleted : TrustAssessmentStatus → Bool
  | completed | completedWithWarnings => true
  | pending | running | failed | cancelled => false

inductive FindingType
  | kpi | leakage | exception | controlFailure | reconciliation | risk | opportunity | dataQuality
  deriving DecidableEq

inductive FindingSeverity
  | info | low | medium | high | critical

inductive FindingValueType
  | count | integer | decimal | percentage | ratio | duration | distance | volume | mass | energy
  | currency | boolean | textCategory
  deriving DecidableEq

inductive EvidenceType
  | execution | oikbDefinition | trustAssessment | readinessDecision | dataset | ingestionBatch
  | sourceSystem | lineage | affectedRecord | calculationTrace | ruleTrace | comparisonPeriod
  | benchmark | documentReference | humanVerification
  deriving DecidableEq

inductive IdentityRole
  | subject | materialCondition
  deriving DecidableEq

/-- `identity_role.replace('_', ' ').title()`. -/
def IdentityRole.title : IdentityRole → String
  | subject => "Subject"
  | materialCondition => "Material Condition"

/-! ## Requests -/

/-- The tables whose rows evidence can point at. -/
inductive EvidenceModel
  | sourceSystem | ingestionBatch | dataset | lineageNode | rawRecordReference
  deriving DecidableEq

structure EvidenceItemCreate where
  evidenceType : EvidenceType
  referenceType : String
  referenceId : Option String := none
  referenceUri : Option String := none
  label : String
  sourceSystemId : Option UUID := none
  ingestionBatchId : Option UUID := none
  datasetId : Option UUID := none
  lineageNodeId : Option UUID := none
  rawRecordReferenceId : Option UUID := none
  canonicalEntity : Option String := none
  canonicalRecordReference : Option String := none

structure StableFindingIdentityReference where
  identityRole : IdentityRole
  (referenceType canonicalReference : String)
  canonicalEntity : Option String

structure ContributingDataset where
  datasetId : UUID

structure CanonicalEvidenceCompletenessResult where
  satisfied : Bool
  missingCanonicalFields : List String

structure GovernedFindingRequest where
  (organizationId primaryDatasetId trustAssessmentId : UUID)
  (definitionCode definitionVersion ruleConditionCode : String)
  affectedRecordCount : ℤ
  (title summary domainCode : String)
  severity : FindingSeverity
  findingType : FindingType
  contributingDatasets : List ContributingDataset := []
  entities : List (List (String × Json)) := []
  identityReferences : List StableFindingIdentityReference := []
  domains : List String := []
  economicStatus : String := "governed_pending"
  limitations : List String := []
  exposureValue : Option ℚ := none
  exposureValueType : Option FindingValueType := none
  exposureCurrency : Option String := none
  supportingEvidence : List EvidenceItemCreate := []
  canonicalEvidenceCompleteness : Option CanonicalEvidenceCompletenessResult := none

/-! ## Rows -/

structure Organization where
  id : UUID
  active : Bool

structure TrustAssessment where
  (id organizationId : UUID)
  status : TrustAssessmentStatus

structure AnalyticalReadinessDecision where
  (id organizationId trustAssessmentId : UUID)
  analyticalLevel : AnalyticalLevel
  readinessStatus : ReadinessStatus
  (blockingRuleCodes warningRuleCodes : List String)

/-- A row of one of the tables that evidence points at. -/
structure EvidenceRow where
  model : EvidenceModel
  (id organizationId : UUID)
  deriving DecidableEq

structure IntelligenceExecution where
  (id organizationId datasetId trustAssessmentId readinessDecisionId : UUID)
  (definitionCode definitionVersion : String)
  resultValue : ℤ
  (unit currency : Option String)
  breached : Bool
  (checkedRecordCount affectedRecordCount : ℤ)
  exposureValue : Option ℚ
  exposureCurrency : Option String

/-- What the deduplication key is computed from. -/
structure DeduplicationContent where
  organizationId : UUID
  (definitionCode definitionVersion : String)
  findingType : FindingType
  datasetReference : UUID
  affectedReferences : List (String × Option String × Option String)
  measuredValueType : FindingValueType
  measuredValue : ℤ
  (measuredUnit measuredCurrency : Option String)

structure Finding where
  (id organizationId : UUID)
  findingType : FindingType
  (title summary domainCode : String)
  severity : FindingSeverity
  measuredValue : ℤ
  exposureValue : Option ℚ
  exposureValueType : Option FindingValueType
  exposureCurrency : Option String
  /-- The condition under `severity_reason["basis"]`. -/
  severityBasis : String
  affectedRecordCount : ℤ
  sourceExecutionId : UUID
  (definitionCode definitionVersion : String)
  (trustAssessmentId analyticalReadinessId datasetId : UUID)
  limitations : List String
  deduplicationKey : String
  economicStatus : Option String
  entities : Option (List (List (String × Json)))
  domains : Option (List String)

structure FindingSourceDataset where
  (organizationId findingId datasetId : UUID)

structure Db where
  organizations : List Organization
  trustAssessments : List TrustAssessment
  readinessDecisions : List AnalyticalReadinessDecision
  evidenceRows : List EvidenceRow
  executions : List IntelligenceExecution
  findings : List Finding
  findingSourceDatasets : List FindingSourceDataset

/-- What the standard library, the rule registry and SHA-256 make of their arguments. -/
structure Env where
  (strip upper : String → String)
  /-- Whether the registered rule of a code and version is active; `none` when there is none. -/
  rule : String → String → Option Bool
  digest : DeduplicationContent → String

/-- How a call is raised: by a contract of its values, by an unorderable sort, by a constraint of
the store, or by the finding platform with its code. -/
inductive PublishError
  | validation (message : String)
  | unorderable
  | integrity
  | platform (code message : String)

/-- A call with what it draws: the row that the readiness query returns where several match, and
the identifiers of the rows that it inserts. -/
structure PublishCall where
  request : GovernedFindingRequest
  (answer readinessId executionId findingId : UUID)
  /-- Whether a caller that catches what is raised goes on to commit the session. -/
  committedByCaller : Bool

/-! ## The readiness gate -/

def requiredFieldCompleteness : String := "required_field_completeness"

/-- A readiness decision that the publisher's query matches. -/
def AnalyticalReadinessDecision.Matches (r : AnalyticalReadinessDecision)
    (organizationId trustAssessmentId : UUID) : Prop :=
  r.organizationId = organizationId ∧ r.trustAssessmentId = trustAssessmentId ∧
    r.analyticalLevel = .arithmetic

instance (r : AnalyticalReadinessDecision) (organizationId trustAssessmentId : UUID) :
    Decidable (r.Matches organizationId trustAssessmentId) :=
  inferInstanceAs (Decidable (_ ∧ _ ∧ _))

/-- The readiness query has no order: it returns the matching row that `answer` names where there is
one, and else the first. -/
def readinessLookup (db : Db) (request : GovernedFindingRequest) (answer : UUID) :
    Option AnalyticalReadinessDecision :=
  let rows := db.readinessDecisions.filter fun r =>
    r.Matches request.organizationId request.trustAssessmentId
  (rows.find? fun r => r.id = answer).or rows.head?

/-- The request carries a satisfied completeness result of its own. -/
def GovernedFindingRequest.CompletenessSatisfied (request : GovernedFindingRequest) : Prop :=
  ∃ result ∈ request.canonicalEvidenceCompleteness, result.satisfied = true

instance (request : GovernedFindingRequest) : Decidable request.CompletenessSatisfied :=
  inferInstanceAs (Decidable (∃ result ∈ request.canonicalEvidenceCompleteness, _))

/-- `set(blocking_rule_codes) == {"required_field_completeness"}`. -/
def AnalyticalReadinessDecision.OnlyFieldCompleteness (r : AnalyticalReadinessDecision) : Prop :=
  r.blockingRuleCodes.toFinset = {requiredFieldCompleteness}

instance (r : AnalyticalReadinessDecision) : Decidable r.OnlyFieldCompleteness :=
  inferInstanceAs (Decidable (_ = _))

/-- The row of the corrected path. -/
def correctedReadiness (request : GovernedFindingRequest) (id : UUID) :
    AnalyticalReadinessDecision where
  id
  organizationId := request.organizationId
  trustAssessmentId := request.trustAssessmentId
  analyticalLevel := .arithmetic
  readinessStatus := .readyWithWarnings
  blockingRuleCodes := []
  warningRuleCodes := ["canonical_evidence_completeness_corrected"]

/-- The decision under which the call publishes, with the session after the gate; `none` when the
gate is closed. -/
def readinessGate (db : Db) (call : PublishCall) :
    Except PublishError (Option (Db × AnalyticalReadinessDecision)) :=
  match readinessLookup db call.request call.answer with
  | none => .ok none
  | some readiness =>
    if readiness.readinessStatus.isReady then .ok (some (db, readiness))
    else if call.request.CompletenessSatisfied ∧ readiness.OnlyFieldCompleteness then
      let row := correctedReadiness call.request call.readinessId
      match Table.insert (fun r r' => r.id = r'.id) row db.readinessDecisions with
      | none => .error .integrity
      | some rows => .ok (some ({ db with readinessDecisions := rows }, row))
    else .ok none

/-! ## The execution row -/

/-- The execution row of a request under a readiness decision. -/
def newExecution (request : GovernedFindingRequest) (readinessId id : UUID) :
    IntelligenceExecution where
  id
  organizationId := request.organizationId
  datasetId := request.primaryDatasetId
  trustAssessmentId := request.trustAssessmentId
  readinessDecisionId := readinessId
  definitionCode := request.definitionCode
  definitionVersion := request.definitionVersion
  resultValue := request.affectedRecordCount
  unit := none
  currency := none
  breached := 0 < request.affectedRecordCount
  checkedRecordCount := max request.affectedRecordCount 1
  affectedRecordCount := request.affectedRecordCount
  exposureValue := request.exposureValue
  exposureCurrency := request.exposureCurrency

/-- Add the execution; the store refuses a negative count and references to missing rows. -/
def recordExecution (db : Db) (execution : IntelligenceExecution) : Except PublishError Db := do
  ensure (0 ≤ execution.affectedRecordCount ∧
    execution.affectedRecordCount ≤ execution.checkedRecordCount) .integrity
  ensure (∃ o ∈ db.organizations, o.id = execution.organizationId) .integrity
  ensure (∃ r ∈ db.evidenceRows, r.model = .dataset ∧ r.id = execution.datasetId) .integrity
  ensure (∃ a ∈ db.trustAssessments, a.id = execution.trustAssessmentId) .integrity
  let executions ← orFail
    (Table.insert (fun e e' => e.id = e'.id) execution db.executions) .integrity
  return { db with executions }

/-! ## The candidate -/

/-- `min_length` and `max_length` of a text. -/
def lengthBetween (low high : ℕ) (s : String) : Prop := low ≤ s.length ∧ s.length ≤ high

instance (low high : ℕ) (s : String) : Decidable (lengthBetween low high s) :=
  inferInstanceAs (Decidable (_ ∧ _))

/-- The contract of an evidence item, as far as the publisher's own items can break it. -/
def checkEvidenceItem (item : EvidenceItemCreate) : Except PublishError EvidenceItemCreate := do
  ensure (lengthBetween 1 50 item.referenceType) (.validation "reference_type")
  ensure (∀ s ∈ item.referenceId, lengthBetween 0 255 s) (.validation "reference_id")
  ensure (lengthBetween 1 200 item.label) (.validation "label")
  ensure (∀ s ∈ item.canonicalEntity, lengthBetween 0 100 s) (.validation "canonical_entity")
  ensure (∀ s ∈ item.canonicalRecordReference, lengthBetween 0 255 s)
    (.validation "canonical_record_reference")
  return item

/-- The identity references by their stripped key, the last one of a key counting. -/
def normalizeReferences (env : Env) : List StableFindingIdentityReference →
      List ((String × String) × StableFindingIdentityReference) →
      Except PublishError (List ((String × String) × StableFindingIdentityReference))
  | [], normalized => .ok normalized
  | reference :: references, normalized => do
    let key := (env.strip reference.referenceType, env.strip reference.canonicalReference)
    ensure (key.1 ≠ "" ∧ key.2 ≠ "")
      (.validation "Finding identity references require a type and canonical reference")
    ensure (∀ entry ∈ normalized, entry.1 = key → entry.2.identityRole = reference.identityRole)
      (.validation "A finding identity reference cannot have conflicting roles")
    normalizeReferences env references
      ((key, reference) :: normalized.filter fun entry => entry.1 ≠ key)

/-- The order of pairs of texts. -/
def pairLe (a b : String × String) : Prop := a.1 < b.1 ∨ a.1 = b.1 ∧ ¬ b.2 < a.2

instance (a b : String × String) : Decidable (pairLe a b) :=
  inferInstanceAs (Decidable (_ ∨ _ ∧ ¬ _))

/-- `_identity_evidence_items`: the normalized references in the order of their keys. -/
def identityEvidenceItems (env : Env) (references : List StableFindingIdentityReference) :
    Except PublishError (List EvidenceItemCreate) := do
  let normalized ← normalizeReferences env references []
  let sorted := normalized.insertionSort fun a b => pairLe a.1 b.1
  sorted.mapM fun ((referenceType, canonicalReference), reference) =>
    let entity := env.strip (reference.canonicalEntity.getD "")
    checkEvidenceItem {
      evidenceType := .affectedRecord
      referenceType
      referenceId := some canonicalReference
      canonicalEntity := if entity = "" then none else some entity
      canonicalRecordReference := some canonicalReference
      label := reference.identityRole.title ++ ": " ++ referenceType ++ " " ++ canonicalReference }

def datasetEvidence (datasetId : UUID) (label : String) : EvidenceItemCreate where
  evidenceType := .dataset
  referenceType := "dataset"
  referenceId := some (toString datasetId)
  label
  datasetId := some datasetId

structure CandidateFindingCreate where
  (executionId resultId : UUID)
  findingType : FindingType
  (title summary domainCode : String)
  measuredValue : ℤ
  measuredValueType : FindingValueType
  (measuredUnit measuredCurrency : Option String)
  exposureValue : Option ℚ
  exposureValueType : Option FindingValueType
  exposureCurrency : Option String
  severity : FindingSeverity
  severityBasis : String
  affectedRecordCount : ℤ
  datasetReference : UUID
  evidence : List EvidenceItemCreate
  (warnings limitations : List String)

/-- `_currency`. -/
def normalizeCurrency (env : Env) : Option String → Except PublishError (Option String)
  | none => .ok none
  | some value =>
    let normalized := env.upper value
    if normalized.length = 3 ∧ normalized.toList.all Char.isAlpha then .ok (some normalized)
    else .error (.validation "Currency must contain three ASCII letters")

/-- The exposure triad of `validate_contract`. -/
def exposureContract (payload : CandidateFindingCreate) : Except PublishError Unit :=
  if payload.exposureValue = none then
    ensure (payload.exposureValueType = none ∧ payload.exposureCurrency = none)
      (.validation "Exposure metadata requires an exposure value")
  else do
    ensure (payload.exposureValueType ≠ none) (.validation "Exposure value type is required")
    ensure (payload.exposureValueType = some .currency → payload.exposureCurrency ≠ none)
      (.validation "Exposure currency is required")
    ensure (payload.exposureValueType ≠ some .currency → payload.exposureCurrency = none)
      (.validation "Exposure currency is only valid for currency exposure")

/-- The leakage rules of `validate_contract`. -/
def leakageContract (payload : CandidateFindingCreate) : Except PublishError Unit :=
  if payload.findingType = .leakage then do
    ensure (payload.exposureValue ≠ none ∧ payload.affectedRecordCount ≠ 0)
      (.validation "Leakage findings require exposure and affected records")
    ensure (∃ item ∈ payload.evidence, item.evidenceType = .affectedRecord)
      (.validation "Leakage findings require affected-record evidence")
    ensure (payload.warnings ≠ [] ∨ payload.limitations ≠ [])
      (.validation "Leakage findings require warnings or limitations")
  else .ok ()

/-- `CandidateFindingCreate.validate_contract`, without the checks that the publisher's own fields
cannot fail. -/
def validateContract (payload : CandidateFindingCreate) : Except PublishError Unit := do
  exposureContract payload
  leakageContract payload

/-- The evidence in the publisher's order: the primary dataset, the other contributing datasets, the
identity references, and what the capability supplies. -/
def requestEvidence (env : Env) (request : GovernedFindingRequest) :
    Except PublishError (List EvidenceItemCreate) := do
  let contributing := request.contributingDatasets.filter fun c =>
    c.datasetId ≠ request.primaryDatasetId
  let identity ← identityEvidenceItems env request.identityReferences
  return datasetEvidence request.primaryDatasetId "Primary contributing dataset" ::
    contributing.map (fun c => datasetEvidence c.datasetId "Contributing dataset") ++ identity ++
      request.supportingEvidence

def candidate (env : Env) (request : GovernedFindingRequest) (executionId : UUID) :
    Except PublishError CandidateFindingCreate := do
  let evidence ← requestEvidence env request
  ensure (lengthBetween 1 100 request.ruleConditionCode) (.validation "condition_code")
  ensure (lengthBetween 1 250 request.title) (.validation "title")
  ensure (lengthBetween 1 2000 request.summary) (.validation "summary")
  ensure (lengthBetween 1 100 request.domainCode) (.validation "domain_code")
  let exposureCurrency ← normalizeCurrency env request.exposureCurrency
  ensure (0 ≤ request.affectedRecordCount) (.validation "affected_record_count")
  ensure (evidence.length ≤ 200) (.validation "evidence")
  ensure (request.limitations.length ≤ 20) (.validation "limitations")
  let payload : CandidateFindingCreate := {
    executionId
    resultId := executionId
    findingType := request.findingType
    title := request.title
    summary := request.summary
    domainCode := request.domainCode
    measuredValue := request.affectedRecordCount
    measuredValueType := .count
    measuredUnit := none
    measuredCurrency := none
    exposureValue := request.exposureValue
    exposureValueType := request.exposureValueType
    exposureCurrency
    severity := request.severity
    severityBasis := request.ruleConditionCode
    affectedRecordCount := request.affectedRecordCount
    datasetReference := request.primaryDatasetId
    evidence
    warnings := []
    limitations := request.limitations }
  validateContract payload
  return payload

/-! ## The finding platform -/

/-- `_execution`. -/
def eligibleExecution (db : Db) (organizationId executionId : UUID) :
    Except PublishError IntelligenceExecution :=
  orFail (db.executions.find? fun e => e.id = executionId ∧ e.organizationId = organizationId)
    (.platform "EXECUTION_NOT_ELIGIBLE" "Eligible execution not found")

/-- `_definition_operation`, as far as it can fail for a rule. -/
def definitionActive (env : Env) (execution : IntelligenceExecution) :
    Except PublishError Unit := do
  let active ← orFail (env.rule execution.definitionCode execution.definitionVersion)
    (.platform "DEFINITION_REFERENCE_INVALID" "Registered definition not found")
  ensure (active = true)
    (.platform "DEFINITION_REFERENCE_INVALID" "Definition is not eligible for publication")

/-- `_validate_execution_contract`: the assessment, the readiness decision and the dataset are read
again. -/
def validateExecutionContract (db : Db) (organizationId : UUID)
    (execution : IntelligenceExecution) (payload : CandidateFindingCreate) :
    Except PublishError Unit := do
  ensure (payload.resultId = execution.id)
    (.platform "RESULT_NOT_ELIGIBLE" "Result reference is not eligible")
  ensure (∃ a ∈ db.trustAssessments, a.id = execution.trustAssessmentId ∧
      a.organizationId = organizationId ∧ a.status.isCompleted = true)
    (.platform "TRUST_REFERENCE_INVALID" "Valid Trust assessment not found")
  ensure (∃ r ∈ db.readinessDecisions, r.id = execution.readinessDecisionId ∧
      r.organizationId = organizationId ∧ r.trustAssessmentId = execution.trustAssessmentId ∧
      r.readinessStatus.isReady = true)
    (.platform "READINESS_REFERENCE_INVALID" "Valid readiness decision not found")
  ensure (∃ d ∈ db.evidenceRows, d.model = .dataset ∧ d.id = execution.datasetId ∧
      d.organizationId = organizationId)
    (.platform "CROSS_TENANT_REFERENCE" "Dataset reference is not eligible")

/-- `_validate_measurement`. -/
def validateMeasurement (execution : IntelligenceExecution) (payload : CandidateFindingCreate) :
    Except PublishError Unit := do
  ensure (payload.measuredValue = execution.resultValue)
    (.platform "RESULT_NOT_ELIGIBLE" "Measured value must equal the immutable execution result")
  ensure (payload.measuredUnit = execution.unit)
    (.platform "INVALID_VALUE_UNIT" "Measured unit must match the execution result")
  ensure (payload.measuredCurrency = execution.currency)
    (.platform "INVALID_CURRENCY" "Measured currency must match the execution result")
  ensure (payload.exposureValue = execution.exposureValue)
    (.platform "INVALID_EXPOSURE" "Exposure must match the execution result")
  ensure (payload.exposureCurrency = execution.exposureCurrency)
    (.platform "INVALID_CURRENCY" "Exposure currency must match the execution result")

/-- The rows that an evidence item points at. -/
def EvidenceItemCreate.references (item : EvidenceItemCreate) : List (EvidenceModel × UUID) :=
  item.sourceSystemId.toList.map (.sourceSystem, ·) ++
    item.ingestionBatchId.toList.map (.ingestionBatch, ·) ++
    item.datasetId.toList.map (.dataset, ·) ++
    item.lineageNodeId.toList.map (.lineageNode, ·) ++
    item.rawRecordReferenceId.toList.map (.rawRecordReference, ·)

/-- `_validate_evidence_references`. -/
def validateEvidenceReferences (db : Db) (organizationId : UUID)
    (evidence : List EvidenceItemCreate) : Except PublishError Unit :=
  ensure (∀ item ∈ evidence, ∀ reference ∈ item.references,
      ⟨reference.1, reference.2, organizationId⟩ ∈ db.evidenceRows)
    (.platform "CROSS_TENANT_REFERENCE" "Evidence reference is not eligible")

/-- Two optional texts can be ordered unless just one of them is missing. -/
def comparable : Option String → Option String → Bool
  | some _, some _ | none, none => true
  | some _, none | none, some _ => false

/-- Two references can be ordered when their first difference can. -/
def referencesComparable (a b : String × Option String × Option String) : Bool :=
  a.1 ≠ b.1 ∨ if a.2.1 = b.2.1 then comparable a.2.2 b.2.2 = true else comparable a.2.1 b.2.1 = true

/-- `FindingDeduplicationService.key`: the sort raises where two affected references cannot be
ordered. -/
def deduplicationKey (env : Env) (organizationId : UUID) (execution : IntelligenceExecution)
    (payload : CandidateFindingCreate) : Except PublishError String := do
  let references := (payload.evidence.filter fun item => item.evidenceType = .affectedRecord).map
    fun item => (item.referenceType, item.referenceId, item.canonicalRecordReference)
  ensure (∀ a ∈ references, ∀ b ∈ references, referencesComparable a b = true) .unorderable
  return env.digest {
    organizationId
    definitionCode := execution.definitionCode
    definitionVersion := execution.definitionVersion
    findingType := payload.findingType
    datasetReference := payload.datasetReference
    affectedReferences := references.insertionSort fun a b =>
      a.1 < b.1 ∨ a.1 = b.1 ∧ pairLe (a.2.1.getD "", a.2.2.getD "") (b.2.1.getD "", b.2.2.getD "")
    measuredValueType := payload.measuredValueType
    measuredValue := payload.measuredValue
    measuredUnit := payload.measuredUnit
    measuredCurrency := payload.measuredCurrency }

def newFinding (execution : IntelligenceExecution) (payload : CandidateFindingCreate)
    (organizationId id : UUID) (key : String) : Finding where
  id
  organizationId
  findingType := payload.findingType
  title := payload.title
  summary := payload.summary
  domainCode := payload.domainCode
  severity := payload.severity
  measuredValue := payload.measuredValue
  exposureValue := payload.exposureValue
  exposureValueType := payload.exposureValueType
  exposureCurrency := payload.exposureCurrency
  severityBasis := payload.severityBasis
  affectedRecordCount := payload.affectedRecordCount
  sourceExecutionId := execution.id
  definitionCode := execution.definitionCode
  definitionVersion := execution.definitionVersion
  trustAssessmentId := execution.trustAssessmentId
  analyticalReadinessId := execution.readinessDecisionId
  datasetId := execution.datasetId
  limitations := payload.limitations
  deduplicationKey := key
  economicStatus := none
  entities := none
  domains := none

/-- The stored finding with the key, or the new one added behind the stored ones. -/
def findOrAdd (db : Db) (finding : Finding) : Except PublishError (Db × Finding) :=
  match db.findings.find? fun f => f.organizationId = finding.organizationId ∧
      f.deduplicationKey = finding.deduplicationKey with
  | some existing => .ok (db, existing)
  | none => do
    let findings ← orFail (Table.insert
      (fun f f' => f.id = f'.id ∨
        f.organizationId = f'.organizationId ∧ f.deduplicationKey = f'.deduplicationKey)
      finding db.findings) .integrity
    return ({ db with findings }, finding)

/-- `FindingPublicationService.publish_candidate_finding`; a finding with the same key is returned
as it is. -/
def publishCandidateFinding (env : Env) (db : Db) (organizationId : UUID)
    (payload : CandidateFindingCreate) (findingId : UUID) : Except PublishError (Db × Finding) := do
  ensure (∃ o ∈ db.organizations, o.id = organizationId ∧ o.active = true)
    (.platform "CROSS_TENANT_REFERENCE" "Active organization not found")
  let execution ← eligibleExecution db organizationId payload.executionId
  definitionActive env execution
  validateExecutionContract db organizationId execution payload
  validateMeasurement execution payload
  validateEvidenceReferences db organizationId payload.evidence
  let key ← deduplicationKey env organizationId execution payload
  findOrAdd db (newFinding execution payload organizationId findingId key)

/-! ## Publication -/

/-- The economic status, the entities, the domains and the source datasets that the publisher adds
to the finding. -/
def attach (db : Db) (request : GovernedFindingRequest) (finding : Finding) : Db × Finding :=
  let attached := { finding with
    economicStatus := some request.economicStatus
    entities := if request.entities = [] then none else some request.entities
    domains := if request.domains = [] then none else some request.domains }
  let datasets := (request.primaryDatasetId :: request.contributingDatasets.map (·.datasetId)).dedup
  let missing := datasets.filter fun d =>
    ¬ ∃ s ∈ db.findingSourceDatasets, s.findingId = finding.id ∧ s.datasetId = d
  ({ db with
      findings := Table.update (fun f => f.id = finding.id) (fun _ => attached) db.findings
      findingSourceDatasets := db.findingSourceDatasets ++
        missing.map fun d => ⟨request.organizationId, finding.id, d⟩ },
    attached)

/-- How a call ends: with a committed state and its reply, or raised with what its session holds. -/
inductive Outcome
  | returned (db : Db) (finding : Option Finding)
  | raised (error : PublishError) (session : Db)

/-- The state that the call's session holds at its end. -/
def Outcome.session : Outcome → Db
  | .returned db _ => db
  | .raised _ session => session

def Outcome.reply : Outcome → Option Finding
  | .returned _ finding => finding
  | .raised _ _ => none

/-- What the session holds after an error behind the execution: the finding platform's errors and a
refused flush roll it back. -/
def afterError (db session : Db) : PublishError → Db
  | .platform _ _ | .integrity => db
  | .validation _ | .unorderable => session

/-- What follows the gate: the execution, the candidate, its publication and the attachments. -/
def publishUnder (env : Env) (db gated : Db) (call : PublishCall) (readinessId : UUID) : Outcome :=
  let execution := newExecution call.request readinessId call.executionId
  match recordExecution gated execution with
  | .error e => .raised e db
  | .ok recorded =>
    match candidate env call.request execution.id with
    | .error e => .raised e recorded
    | .ok payload =>
      match publishCandidateFinding env recorded call.request.organizationId payload
          call.findingId with
      | .error e => .raised e (afterError db recorded e)
      | .ok (published, finding) =>
        let finished := attach published call.request finding
        .returned finished.1 (some finished.2)

/-- `GovernedFindingPublisher.publish`. -/
def publish (env : Env) (db : Db) (call : PublishCall) : Outcome :=
  match readinessGate db call with
  | .error e => .raised e db
  | .ok none => .returned db none
  | .ok (some (gated, readiness)) => publishUnder env db gated call readiness.id

/-- The publisher as a service: a raised call is rolled back, unless its caller catches what is
raised and commits the session. -/
def service (env : Env) : Service Db PublishCall (Option Finding) PublishError := fun db call =>
  match publish env db call with
  | .returned db' finding => .ok (db', finding)
  | .raised e session => if call.committedByCaller then .ok (session, none) else .error e

end Intel4Ops.Findings

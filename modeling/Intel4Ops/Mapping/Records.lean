import Intel4Ops.Mapping.Resolution

/-!
# Records and runs

`_map_record` with the rows it adds, and the two ways to carry a run out: `execute` at once, and
`execute_claimed` over the stored inputs of a claimed run. A run is one transaction: what escapes
`_map_record` discards the whole of it.
-/

namespace Intel4Ops.Mapping

open Lib

/-! ## Rows of a record -/

/-- Two results that the unique constraint keeps apart. -/
def MappingRecordResult.Clashes (r r' : MappingRecordResult) : Prop :=
  r.mappingRunId = r'.mappingRunId ∧ r.rawRecordReferenceId = r'.rawRecordReferenceId ∧
    r.canonicalTargetKind = r'.canonicalTargetKind

instance (r r' : MappingRecordResult) : Decidable (r.Clashes r') :=
  inferInstanceAs (Decidable (_ ∧ _ ∧ _))

/-- Add a result; its output has to be JSON. -/
def addResult (db : Db) (result : MappingRecordResult) : Raises Db := do
  ensure (result.resultJson.isJson = true) .notSerializable
  let results ← orFail (Table.insert MappingRecordResult.Clashes result db.results) .integrity
  return { db with results, nextId := db.nextId + 1 }

/-- Two links that the unique constraint keeps apart. -/
def SourceCanonicalLink.Clashes (l l' : SourceCanonicalLink) : Prop :=
  l.organizationId = l'.organizationId ∧ l.rawRecordReferenceId = l'.rawRecordReferenceId ∧
    l.canonicalTargetKind = l'.canonicalTargetKind ∧
    l.canonicalTargetId = l'.canonicalTargetId ∧ l.mappingRunId = l'.mappingRunId

instance (l l' : SourceCanonicalLink) : Decidable (l.Clashes l') :=
  inferInstanceAs (Decidable (_ ∧ _ ∧ _ ∧ _ ∧ _))

def addLink (db : Db) (link : SourceCanonicalLink) : Raises Db := do
  let links ← orFail (Table.insert SourceCanonicalLink.Clashes link db.links) .integrity
  return { db with links, nextId := db.nextId + 1 }

/-- The candidate rows of a link, with the identifiers from `id` on. -/
def candidateRows (organizationId linkId : UUID) : ℕ → List MatchCandidate →
    List EntityMatchCandidate
  | _, [] => []
  | id, c :: cs =>
    { id
      organizationId
      sourceCanonicalLinkId := linkId
      candidateEntityId := c.entity.id
      matchRuleId := c.rule.id
      matchScore := c.score
      status := .candidate
      decidedByUserId := none } :: candidateRows organizationId linkId (id + 1) cs

def addCandidates (db : Db) (organizationId linkId : UUID) (candidates : List MatchCandidate) :
    Db :=
  { db with
    candidates := db.candidates ++ candidateRows organizationId linkId db.nextId candidates
    nextId := db.nextId + candidates.length }

def setSurvivorship (db : Db) (entityId linkId : UUID) : Db :=
  { db with
    entities := Table.update
      (fun e => e.id = entityId ∧ e.survivorshipSourceLinkId.isNone)
      (fun e => { e with survivorshipSourceLinkId := some linkId }) db.entities }

/-- The row of `_add_exception`. -/
def newException (id organizationId resultId : UUID) (exceptionType : MappingExceptionType)
    (fields : List String) : MappingException where
  id
  organizationId
  mappingRecordResultId := resultId
  exceptionType
  status := .open
  fields
  resolutionSummary := none

/-- `_add_exception`. -/
def addException (db : Db) (organizationId resultId : UUID) (exceptionType : MappingExceptionType)
    (fields : List String) : Db :=
  { db with
    exceptions := db.exceptions ++
      [newException db.nextId organizationId resultId exceptionType fields]
    nextId := db.nextId + 1 }

/-! ## The counters of a run -/

def MappingRun.countMapped (run : MappingRun) : MappingRun :=
  { run with mappedCount := run.mappedCount + 1 }

def MappingRun.countException (run : MappingRun) : MappingRun :=
  { run with exceptionCount := run.exceptionCount + 1, rejectedCount := run.rejectedCount + 1 }

/-! ## One record -/

/-- `_exception_result`: a result without a target, and its exception. -/
def exceptionResult (db : Db) (run : MappingRun) (version : MappingTemplateVersion)
    (rawId : UUID) (type : MappingExceptionType) (fields : List String) :
    Raises (Db × MappingRun) := do
  let recorded ← addResult db {
    id := db.nextId
    organizationId := run.organizationId
    mappingRunId := run.id
    rawRecordReferenceId := rawId
    status :=
      if type = .missingRequiredField then .missingRequiredField else .unresolved
    canonicalTargetKind := version.targetKind
    canonicalTargetId := none
    mappingConfidenceScore := none
    confidenceMethodCode := none
    resultJson := [] }
  return (addException recorded run.organizationId db.nextId type fields, run.countException)

def targetResult (db : Db) (run : MappingRun) (version : MappingTemplateVersion) (rawId : UUID)
    (output : Output) (confidence : ℚ) (target : Materialized) : MappingRecordResult where
  id := db.nextId
  organizationId := run.organizationId
  mappingRunId := run.id
  rawRecordReferenceId := rawId
  status := target.status
  canonicalTargetKind := version.targetKind
  canonicalTargetId := some target.targetId
  mappingConfidenceScore := some confidence
  confidenceMethodCode := some "minimum_supporting_input"
  resultJson := output

def targetLink (db : Db) (run : MappingRun) (version : MappingTemplateVersion) (rawId : UUID)
    (confidence : ℚ) (target : Materialized) : SourceCanonicalLink where
  id := db.nextId
  organizationId := run.organizationId
  rawRecordReferenceId := rawId
  canonicalTargetKind := version.targetKind
  canonicalTargetId := target.targetId
  mappingRunId := run.id
  isPrimary := target.status = .mapped
  mappingConfidenceScore := confidence
  confidenceMethodCode := "minimum_supporting_input"

/-- What the status of a materialized record adds behind its link. -/
def settleRecord (db : Db) (run : MappingRun) (version : MappingTemplateVersion)
    (resultId linkId : UUID) (target : Materialized) : Db × MappingRun :=
  match target.status with
  | .ambiguous => (addException db run.organizationId resultId .ambiguousEntity [],
      run.countException)
  | .conflicting => (addException db run.organizationId resultId .conflictingMapping [],
      run.countException)
  | .mapped =>
    (if version.targetKind = .entity then setSurvivorship db target.targetId linkId else db,
      run.countMapped)
  | _ => (db, run.countMapped)

/-- The rows behind a materialized output: result, link, candidates and exception. -/
def recordTarget (run : MappingRun) (version : MappingTemplateVersion) (rawId : UUID)
    (output : Output) (confidence : ℚ) (target : Materialized) : Raises (Db × MappingRun) := do
  let result := targetResult target.db run version rawId output confidence target
  let recorded ← addResult target.db result
  let link := targetLink recorded run version rawId confidence target
  let linked ← addLink recorded link
  let listed := addCandidates linked run.organizationId link.id target.candidates
  return settleRecord listed run version result.id link.id target

/-- `min(confidence_scores, default=Decimal("1"))`. -/
def minimumScore : List ℚ → ℚ
  | [] => 1
  | score :: scores => scores.foldl min score

/-- The rest of `_map_record` behind the loop over the fields. -/
def mapOutput (env : Env) (db : Db) (run : MappingRun) (version : MappingTemplateVersion)
    (rawId : UUID) (output : Output) (scores : List ℚ) : Raises (Db × MappingRun) := do
  let target ← materializeTarget env db run.organizationId version output
  recordTarget run version rawId output (minimumScore scores) target

/-- `_map_record`. -/
def mapRecord (env : Env) (db : Db) (run : MappingRun) (version : MappingTemplateVersion)
    (record : MappingInputRecord) : Raises (Db × MappingRun) := do
  ensure (⟨record.rawRecordReferenceId, run.organizationId, run.datasetVersionId⟩ ∈ db.rawRecords)
    (.service "RAW_RECORD_NOT_FOUND")
  match mapFields env db run.organizationId version record.values with
  | .error (.exception type fields) =>
    exceptionResult db run version record.rawRecordReferenceId type fields
  | .error (.raised e) => .error e
  | .ok (output, scores) => mapOutput env db run version record.rawRecordReferenceId output scores

def mapRecords (env : Env) (version : MappingTemplateVersion) :
    Db → MappingRun → List MappingInputRecord → Raises (Db × MappingRun)
  | db, run, [] => .ok (db, run)
  | db, run, record :: records => do
    let (db', run') ← mapRecord env db run version record
    mapRecords env version db' run' records

/-! ## Runs -/

structure MappingRunCreate where
  (datasetVersionId templateVersionId sourceSchemaId : UUID)
  idempotencyKey : String
  records : List MappingInputRecord

/-- `MappingTemplateService.require_version`. -/
def requireVersion (db : Db) (versionId organizationId : UUID) : Raises MappingTemplateVersion := do
  let version ← orFail (db.versions.find? fun v => v.id = versionId)
    (.service "MAPPING_VERSION_NOT_FOUND")
  ensure (version.organizationScoped = true → version.ownerOrganizationId = some organizationId)
    (.service "MAPPING_TEMPLATE_NOT_FOUND")
  return version

/-- The checks of `execute` on its dataset version, source schema and template version. -/
def validateRequest (db : Db) (organizationId : UUID) (payload : MappingRunCreate) :
    Raises MappingTemplateVersion := do
  ensure (∃ d ∈ db.datasetVersions, d.id = payload.datasetVersionId ∧
    d.organizationId = organizationId) (.service "DATASET_VERSION_NOT_FOUND")
  let schema ← orFail (db.sourceSchemas.find? fun s =>
    s.id = payload.sourceSchemaId ∧ s.organizationId = organizationId)
    (.service "SOURCE_SCHEMA_NOT_FOUND")
  ensure (schema.datasetVersionId = payload.datasetVersionId)
    (.service "SOURCE_SCHEMA_DATASET_VERSION_MISMATCH")
  ensure (schema.status ≠ .changed ∧ schema.status ≠ .incompatible)
    (.service "SOURCE_SCHEMA_NOT_USABLE")
  let version ← requireVersion db payload.templateVersionId organizationId
  ensure (version.published = true) (.service "MAPPING_VERSION_NOT_PUBLISHED")
  return version

def MappingRun.finalStatus (run : MappingRun) : MappingRunStatus :=
  if run.exceptionCount = 0 then .completed else .partiallyCompleted

/-- Write a run over the stored row with its identifier. -/
def writeRun (db : Db) (run : MappingRun) : Db :=
  { db with runs := Table.update (fun r => r.id = run.id) (fun _ => run) db.runs }

/-- The running run of a request that is executed at once. -/
def newRun (env : Env) (id organizationId : UUID) (payload : MappingRunCreate)
    (requestFingerprint : String) : MappingRun where
  id
  organizationId
  datasetVersionId := payload.datasetVersionId
  templateVersionId := payload.templateVersionId
  status := .running
  idempotencyKey := payload.idempotencyKey
  requestFingerprint
  inputCount := payload.records.length
  createdAt := env.now

/-- `MappingExecutionService.execute`: the whole run in one transaction. -/
def execute (env : Env) (db : Db) (organizationId : UUID) (payload : MappingRunCreate)
    (requestFingerprint : String) : Raises (Db × MappingRun) :=
  match db.runs.find? fun r => r.organizationId = organizationId ∧
      r.idempotencyKey = payload.idempotencyKey with
  | some existing =>
    if existing.requestFingerprint = requestFingerprint then .ok (db, existing)
    else .error (.service "IDEMPOTENCY_CONFLICT")
  | none => do
    let version ← validateRequest db organizationId payload
    let run := newRun env db.nextId organizationId payload requestFingerprint
    let started := { db with runs := db.runs ++ [run], nextId := db.nextId + 1 }
    let (mapped, counted) ← mapRecords env version started run payload.records
    let final := { counted with status := counted.finalStatus }
    return (writeRun mapped final, final)

structure MappingExecutionClaim where
  (runId organizationId leaseId : UUID)

/-- The run that a claim holds: it is running under the claim's lease. -/
def MappingRun.HeldBy (run : MappingRun) (claim : MappingExecutionClaim) : Prop :=
  run.id = claim.runId ∧ run.organizationId = claim.organizationId ∧ run.status = .running ∧
    run.executionLeaseId = some claim.leaseId

instance (run : MappingRun) (claim : MappingExecutionClaim) : Decidable (run.HeldBy claim) :=
  inferInstanceAs (Decidable (_ ∧ _ ∧ _ ∧ _))

/-- The stored inputs of a run in sequence order. -/
def inputsOf (db : Db) (organizationId runId : UUID) : List MappingInputRecord :=
  ((db.inputs.filter fun i => i.organizationId = organizationId ∧ i.mappingRunId = runId).insertionSort
    fun a b => a.recordSequence ≤ b.recordSequence).map (·.record)

/-- The run that `fail_claimed` leaves. -/
def MappingRun.failed (run : MappingRun) (code : String) (retryable : Bool) : MappingRun :=
  { run with
    status := .failed
    failureCode := some code
    failureRetryable := some retryable
    executionLeaseId := none
    executionWorkerId := none }

/-- The failure code under which an exception of a claimed run is recorded. -/
def failureCode : Raised → String
  | .service _ => "MAPPING_EXECUTION_TERMINAL_FAILURE"
  | _ => "MAPPING_EXECUTION_INTERNAL_ERROR"

/-- `execute_claimed`, undisturbed by other sessions: `none` when the lease is lost. -/
def executeClaimed (env : Env) (db : Db) (claim : MappingExecutionClaim) :
    Raises (Option (Db × MappingRun)) :=
  match db.runs.find? fun r => r.HeldBy claim with
  | none => .ok none
  | some run => do
    let version ← requireVersion db run.templateVersionId claim.organizationId
    match mapRecords env version db run (inputsOf db claim.organizationId run.id) with
    | .error e =>
      let failed := run.failed (failureCode e) false
      return some (writeRun db failed, failed)
    | .ok (mapped, counted) =>
      let final := { counted with
        status := counted.finalStatus
        executionLeaseId := none
        executionWorkerId := none }
      return some (writeRun mapped final, final)

end Intel4Ops.Mapping

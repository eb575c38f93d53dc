import Intel4Ops.Lib.Except
import Intel4Ops.Lib.Ident
import Intel4Ops.Lib.Service
import Intel4Ops.Lib.Table
import Mathlib.Algebra.Order.BigOperators.Group.List
import Mathlib.Algebra.Order.Ring.Nat

/-!
# Ingestion batches and dataset versions

`IngestionBatchService` and `DatasetVersionService`: batches with their lifecycle, timestamps,
failures and counts, and the dataset versions that are delivered in them. Datasets are created and
not changed here, and every call finds the source systems as they are at its time. File metadata,
expected counts, checksums, references and submitters are left out.
-/

namespace Intel4Ops.Ingestion

open Lib Table

/-! ## Enumerations -/

/-- `IngestionMethod` -/
inductive IngestionMethod
  | api | databaseExtract | fileUpload | fileDrop | sftp | webhook | messageQueue | emailIngestion
  | manual | deviceStream | simulated | custom
  deriving DecidableEq

/-- `TriggerType` -/
inductive TriggerType
  | manual | scheduled | event | webhook | retry | backfill | simulation | system
  deriving DecidableEq

/-- `IngestionBatchStatus` -/
inductive BatchStatus
  | received | queued | validating | processing | partiallyCompleted | completed | failed
  | cancelled | quarantined
  deriving DecidableEq

/-- `DatasetVersionStatus` -/
inductive VersionStatus
  | received | validating | accepted | partiallyAccepted | rejected | quarantined | processed
  | failed
  deriving DecidableEq

/-- `SourceSystemStatus` -/
inductive SourceSystemStatus
  | draft | configured | validating | active | paused | failed | decommissioned
  deriving DecidableEq

def BatchStatus.value : BatchStatus → String
  | received => "received"
  | queued => "queued"
  | validating => "validating"
  | processing => "processing"
  | partiallyCompleted => "partially_completed"
  | completed => "completed"
  | failed => "failed"
  | cancelled => "cancelled"
  | quarantined => "quarantined"

def VersionStatus.value : VersionStatus → String
  | received => "received"
  | validating => "validating"
  | accepted => "accepted"
  | partiallyAccepted => "partially_accepted"
  | rejected => "rejected"
  | quarantined => "quarantined"
  | processed => "processed"
  | failed => "failed"

def SourceSystemStatus.value : SourceSystemStatus → String
  | draft => "draft"
  | configured => "configured"
  | validating => "validating"
  | active => "active"
  | paused => "paused"
  | failed => "failed"
  | decommissioned => "decommissioned"

/-- `BATCH_TRANSITIONS` -/
def BatchStatus.transitions : BatchStatus → List BatchStatus
  | received => [queued, validating, cancelled]
  | queued => [validating, cancelled]
  | validating => [processing, quarantined, failed]
  | processing => [completed, partiallyCompleted, failed, quarantined]
  | partiallyCompleted => [completed, failed]
  | failed => [queued]
  | quarantined => [queued, cancelled]
  | completed => []
  | cancelled => []

/-- `VERSION_TRANSITIONS` -/
def VersionStatus.transitions : VersionStatus → List VersionStatus
  | received => [validating]
  | validating => [accepted, partiallyAccepted, rejected, quarantined, failed]
  | accepted => [processed]
  | partiallyAccepted => [processed, failed]
  | quarantined => [validating]
  | failed => [validating]
  | rejected => []
  | processed => []

/-! ## Rows -/

/-- `BatchCountsUpdate`: counts of a batch that `validate_counts` and the check of the table
accept. -/
structure BatchCounts where
  (actualRecordCount acceptedRecordCount rejectedRecordCount warningCount errorCount : ℕ)
  reconciled : acceptedRecordCount + rejectedRecordCount ≤ actualRecordCount

/-- `DatasetVersionCountsUpdate`: counts of a version that `validate_counts` and the check of the
table accept. -/
structure VersionCounts where
  (recordCount acceptedRecordCount rejectedRecordCount : ℕ)
  columnCount : Option ℕ
  reconciled : acceptedRecordCount + rejectedRecordCount ≤ recordCount

/-- The fields that a repeated request is compared by: `immutable_idempotency_fields`. -/
structure BatchIdentity where
  sourceSystemId : UUID
  batchNumber : String
  ingestionMethod : IngestionMethod
  triggerType : TriggerType
  externalBatchId : Option String
  (sourcePeriodStart sourcePeriodEnd : Option Instant)
  deriving DecidableEq

/-- `IngestionBatch` -/
structure Batch extends BatchIdentity where
  (id organizationId : UUID)
  idempotencyKey : Option String
  status : BatchStatus
  (startedAt completedAt failedAt : Option Instant)
  actualDatasetCount : ℕ
  counts : BatchCounts
  (failureCode failureSummary : Option String)

/-- `Dataset` -/
structure Dataset where
  (id organizationId sourceSystemId : UUID)
  code : String

/-- `DatasetVersion` -/
structure DatasetVersion where
  (id organizationId datasetId ingestionBatchId : UUID)
  versionNumber : ℕ
  status : VersionStatus
  counts : VersionCounts
  processedAt : Option Instant

/-- `SourceSystem` -/
structure SourceSystem where
  (id organizationId : UUID)
  status : SourceSystemStatus

/-- The tables of ingestion. -/
structure Db where
  batches : List Batch
  datasets : List Dataset
  versions : List DatasetVersion

/-- A failed request. -/
inductive Error
  | notFound (message : String)
  | tenantMismatch (message : String)
  | conflict (message : String)
  | invalidTransition (message : String)

/-- The unique constraints of batches. -/
def Batch.clash (a b : Batch) : Prop :=
  a.id = b.id ∨ a.organizationId = b.organizationId ∧ a.batchNumber = b.batchNumber ∨
    a.organizationId = b.organizationId ∧ a.idempotencyKey ≠ none ∧
      a.idempotencyKey = b.idempotencyKey

instance (a b : Batch) : Decidable (a.clash b) := inferInstanceAs (Decidable (_ ∨ _ ∨ _))

/-- The unique constraints of datasets. -/
def Dataset.clash (a b : Dataset) : Prop :=
  a.id = b.id ∨ a.organizationId = b.organizationId ∧ a.code = b.code

instance (a b : Dataset) : Decidable (a.clash b) := inferInstanceAs (Decidable (_ ∨ _))

/-- The unique constraints of dataset versions. -/
def DatasetVersion.clash (a b : DatasetVersion) : Prop :=
  a.id = b.id ∨ a.datasetId = b.datasetId ∧ a.versionNumber = b.versionNumber ∨
    a.ingestionBatchId = b.ingestionBatchId ∧ a.datasetId = b.datasetId

instance (a b : DatasetVersion) : Decidable (a.clash b) := inferInstanceAs (Decidable (_ ∨ _ ∨ _))

/-! ## Lookups -/

/-- `source_for_downstream_creation` -/
def sourceForDownstreamCreation (sources : List SourceSystem) (organizationId sourceId : UUID) :
    Except Error SourceSystem := do
  let source ← orFail (sources.find? fun s => s.id = sourceId ∧ s.organizationId = organizationId)
    (.tenantMismatch "Source system not found in organization")
  ensure (source.status = .active) (.conflict ("Source system status '" ++ source.status.value ++
    "' does not permit new downstream data"))
  return source

/-- `IngestionBatchService.get` -/
def Db.batch (db : Db) (organizationId batchId : UUID) : Except Error Batch :=
  orFail (db.batches.find? fun b => b.id = batchId ∧ b.organizationId = organizationId)
    (.notFound "Ingestion batch not found")

/-- `DatasetService.get` -/
def Db.dataset (db : Db) (organizationId datasetId : UUID) : Except Error Dataset :=
  orFail (db.datasets.find? fun d => d.id = datasetId ∧ d.organizationId = organizationId)
    (.notFound "Dataset not found")

/-- `DatasetVersionService.get` -/
def Db.version (db : Db) (organizationId datasetId versionId : UUID) :
    Except Error DatasetVersion :=
  orFail (db.versions.find? fun v => v.id = versionId ∧ v.datasetId = datasetId ∧
    v.organizationId = organizationId) (.notFound "Dataset version not found")

/-! ## Batches -/

/-- `IngestionBatchCreate` -/
structure BatchCreate extends BatchIdentity where
  idempotencyKey : Option String

def BatchCounts.zero : BatchCounts where
  actualRecordCount := 0
  acceptedRecordCount := 0
  rejectedRecordCount := 0
  warningCount := 0
  errorCount := 0
  reconciled := Nat.le_refl 0

def BatchCreate.row (payload : BatchCreate) (organizationId id : UUID) : Batch where
  toBatchIdentity := payload.toBatchIdentity
  id := id
  organizationId := organizationId
  idempotencyKey := payload.idempotencyKey
  status := .received
  startedAt := none
  completedAt := none
  failedAt := none
  actualDatasetCount := 0
  counts := .zero
  failureCode := none
  failureSummary := none

/-- The batch that a request with this key created before. -/
def Db.keyed (db : Db) (organizationId : UUID) (key : Option String) : Option Batch :=
  key.bind fun key =>
    db.batches.find? fun b => b.organizationId = organizationId ∧ b.idempotencyKey = some key

/-- `IngestionBatchService.create` -/
def Db.createBatch (db : Db) (sources : List SourceSystem) (organizationId : UUID)
    (payload : BatchCreate) (id : UUID) : Except Error Db := do
  let _ ← sourceForDownstreamCreation sources organizationId payload.sourceSystemId
  match db.keyed organizationId payload.idempotencyKey with
  | some existing =>
    ensure (existing.toBatchIdentity = payload.toBatchIdentity)
      (.conflict "Idempotency key conflicts with an existing batch")
    return db
  | none =>
    ensure (∀ b ∈ db.batches,
        ¬ (b.organizationId = organizationId ∧ b.batchNumber = payload.batchNumber))
      (.conflict "Batch number already exists")
    let batches ← orFail (insert Batch.clash (payload.row organizationId id) db.batches)
      (.conflict "Ingestion batch conflicts with existing data")
    return { db with batches := batches }

/-- The row of a batch after `_transition`. -/
def Batch.moved (batch : Batch) (target : BatchStatus) (now : Instant) : Batch :=
  { batch with
    status := target
    startedAt := if (target = .validating ∨ target = .processing) ∧ batch.startedAt = none then
      some now else batch.startedAt
    completedAt := if target = .completed ∨ target = .partiallyCompleted then some now
      else batch.completedAt
    failedAt := if target = .failed then some now else if target = .queued then none
      else batch.failedAt }

/-- `_transition` -/
def Batch.transition (batch : Batch) (target : BatchStatus) (now : Instant) :
    Except Error Batch := do
  ensure (target ∈ batch.status.transitions)
    (.invalidTransition ("Cannot transition batch from " ++ batch.status.value ++ " to " ++
      target.value))
  return batch.moved target now

/-- A batch that counts and versions can no longer be written to. -/
def Batch.Closed (batch : Batch) : Prop := batch.status = .completed ∨ batch.status = .cancelled

instance (batch : Batch) : Decidable batch.Closed := inferInstanceAs (Decidable (_ ∨ _))

/-- `_ensure_mutable` of a batch. -/
def Batch.ensureMutable (batch : Batch) : Except Error Unit :=
  ensure (¬ batch.Closed) (.invalidTransition "Completed or cancelled batches cannot be modified")

/-- A batch with a new row. -/
def Db.setBatch (db : Db) (batch : Batch) : Db :=
  { db with batches := update (·.id = batch.id) (fun _ => batch) db.batches }

/-- `IngestionBatchService.transition` -/
def Db.transitionBatch (db : Db) (organizationId batchId : UUID) (target : BatchStatus)
    (now : Instant) : Except Error Db := do
  let batch ← db.batch organizationId batchId
  let moved ← batch.transition target now
  return db.setBatch moved

/-- `IngestionBatchService.record_failure` -/
def Db.recordFailure (db : Db) (organizationId batchId : UUID) (failureCode failureSummary : String)
    (now : Instant) : Except Error Db := do
  let batch ← db.batch organizationId batchId
  let moved ← batch.transition .failed now
  return db.setBatch
    { moved with failureCode := some failureCode, failureSummary := some failureSummary }

/-- `IngestionBatchService.update_counts` -/
def Db.updateCounts (db : Db) (organizationId batchId : UUID) (counts : BatchCounts) :
    Except Error Db := do
  let batch ← db.batch organizationId batchId
  batch.ensureMutable
  return db.setBatch { batch with counts := counts }

def deliveredCounts (versions : List DatasetVersion) (organizationId batchId : UUID) :
    List VersionCounts :=
  (versions.filter fun v => v.organizationId = organizationId ∧ v.ingestionBatchId = batchId).map
    (·.counts)

theorem sum_reconciled (delivered : List VersionCounts) :
    (delivered.map (·.acceptedRecordCount)).sum + (delivered.map (·.rejectedRecordCount)).sum ≤
      (delivered.map (·.recordCount)).sum := by
  rw [← List.sum_map_add]
  exact List.sum_le_sum fun counts _ => counts.reconciled

/-- `_apply_reconciliation` -/
def Batch.applyReconciliation (batch : Batch) (versions : List DatasetVersion)
    (organizationId : UUID) : Batch :=
  let delivered := deliveredCounts versions organizationId batch.id
  { batch with
    actualDatasetCount := delivered.length
    counts := {
      actualRecordCount := (delivered.map (·.recordCount)).sum
      acceptedRecordCount := (delivered.map (·.acceptedRecordCount)).sum
      rejectedRecordCount := (delivered.map (·.rejectedRecordCount)).sum
      warningCount := batch.counts.warningCount
      errorCount := batch.counts.errorCount
      reconciled := sum_reconciled delivered } }

/-- `IngestionBatchService.recalculate` -/
def Db.recalculate (db : Db) (organizationId batchId : UUID) : Except Error Db := do
  let batch ← db.batch organizationId batchId
  batch.ensureMutable
  return db.setBatch (batch.applyReconciliation db.versions organizationId)

/-! ## Datasets and their versions -/

/-- `DatasetCreate` -/
structure DatasetCreate where
  sourceSystemId : UUID
  code : String

/-- `DatasetService.create` -/
def Db.createDataset (db : Db) (sources : List SourceSystem) (organizationId : UUID)
    (payload : DatasetCreate) (id : UUID) : Except Error Db := do
  let _ ← sourceForDownstreamCreation sources organizationId payload.sourceSystemId
  ensure (∀ d ∈ db.datasets, ¬ (d.organizationId = organizationId ∧ d.code = payload.code))
    (.conflict "Dataset code already exists")
  let datasets ← orFail (insert Dataset.clash
      ⟨id, organizationId, payload.sourceSystemId, payload.code⟩ db.datasets)
    (.conflict "Dataset conflicts with existing data")
  return { db with datasets := datasets }

/-- `DatasetVersionCreate` -/
structure VersionCreate where
  ingestionBatchId : UUID
  columnCount : Option ℕ

def Db.numbersOf (db : Db) (datasetId : UUID) : List ℕ :=
  (db.versions.filter (·.datasetId = datasetId)).map (·.versionNumber)

/-- The number of the next version: `max(version_number)` plus one. -/
def Db.nextNumber (db : Db) (datasetId : UUID) : ℕ := (db.numbersOf datasetId).max?.getD 0 + 1

def VersionCreate.row (payload : VersionCreate) (organizationId datasetId : UUID)
    (versionNumber : ℕ) (id : UUID) : DatasetVersion where
  id := id
  organizationId := organizationId
  datasetId := datasetId
  ingestionBatchId := payload.ingestionBatchId
  versionNumber := versionNumber
  status := .received
  counts := {
    recordCount := 0
    acceptedRecordCount := 0
    rejectedRecordCount := 0
    columnCount := payload.columnCount
    reconciled := Nat.le_refl 0 }
  processedAt := none

/-- `DatasetVersionService.create` -/
def Db.createVersion (db : Db) (sources : List SourceSystem) (organizationId datasetId : UUID)
    (payload : VersionCreate) (id : UUID) : Except Error Db := do
  let dataset ← db.dataset organizationId datasetId
  let batch ← db.batch organizationId payload.ingestionBatchId
  batch.ensureMutable
  ensure (dataset.sourceSystemId = batch.sourceSystemId)
    (.tenantMismatch "Dataset and batch source systems must match")
  let _ ← sourceForDownstreamCreation sources organizationId dataset.sourceSystemId
  ensure (∀ v ∈ db.versions, ¬ (v.organizationId = organizationId ∧ v.datasetId = datasetId ∧
      v.ingestionBatchId = batch.id))
    (.conflict "Dataset already has a version in this ingestion batch")
  let version := payload.row organizationId datasetId (db.nextNumber datasetId) id
  let versions ← orFail (insert DatasetVersion.clash version db.versions)
    (.conflict "Dataset version already exists")
  let written := { db with versions := versions }
  return written.setBatch (batch.applyReconciliation versions organizationId)

/-- `_ensure_mutable` of a version. -/
def DatasetVersion.ensureMutable (version : DatasetVersion) : Except Error Unit :=
  ensure (version.status ≠ .processed ∧ version.status ≠ .rejected)
    (.invalidTransition "Processed or rejected dataset versions cannot be modified")

/-- A version with new columns. -/
def Db.setVersion (db : Db) (versionId : UUID) (write : DatasetVersion → DatasetVersion) : Db :=
  { db with versions := update (·.id = versionId) write db.versions }

/-- `DatasetVersionService.update_counts` -/
def Db.updateVersionCounts (db : Db) (organizationId datasetId versionId : UUID)
    (counts : VersionCounts) : Except Error Db := do
  let version ← db.version organizationId datasetId versionId
  version.ensureMutable
  let batch ← db.batch organizationId version.ingestionBatchId
  batch.ensureMutable
  let written := db.setVersion versionId fun v => { v with counts := counts }
  return written.setBatch (batch.applyReconciliation written.versions organizationId)

/-- The row of a version after a transition. -/
def DatasetVersion.moved (version : DatasetVersion) (target : VersionStatus) (now : Instant) :
    DatasetVersion :=
  { version with
    status := target
    processedAt := if target = .processed then some now else version.processedAt }

/-- `DatasetVersionService.transition` -/
def Db.transitionVersion (db : Db) (organizationId datasetId versionId : UUID)
    (target : VersionStatus) (now : Instant) : Except Error Db := do
  let version ← db.version organizationId datasetId versionId
  ensure (target ∈ version.status.transitions)
    (.invalidTransition ("Cannot transition dataset version from " ++ version.status.value ++
      " to " ++ target.value))
  return db.setVersion versionId fun v => v.moved target now

/-! ## The service -/

/-- The calls that write batches, datasets and dataset versions. -/
inductive Request
  | createBatch (payload : BatchCreate)
  | transition (batchId : UUID) (target : BatchStatus)
  | retry (batchId : UUID)
  | quarantine (batchId : UUID)
  | release (batchId : UUID)
  | cancel (batchId : UUID)
  | recordFailure (batchId : UUID) (failureCode failureSummary : String)
  | updateCounts (batchId : UUID) (counts : BatchCounts)
  | recalculate (batchId : UUID)
  | createDataset (payload : DatasetCreate)
  | createVersion (datasetId : UUID) (payload : VersionCreate)
  | updateVersionCounts (datasetId versionId : UUID) (counts : VersionCounts)
  | transitionVersion (datasetId versionId : UUID) (target : VersionStatus)

/-- A call: the organization that it is made for, the source systems that it finds, the clock, and
the identifier that a new row gets. -/
structure Call where
  organizationId : UUID
  sources : List SourceSystem
  now : Instant
  drawn : UUID
  request : Request

def serve (db : Db) (call : Call) : Except Error Db :=
  match call.request with
  | .createBatch payload => db.createBatch call.sources call.organizationId payload call.drawn
  | .transition batchId target => db.transitionBatch call.organizationId batchId target call.now
  | .retry batchId => db.transitionBatch call.organizationId batchId .queued call.now
  | .quarantine batchId => db.transitionBatch call.organizationId batchId .quarantined call.now
  | .release batchId => db.transitionBatch call.organizationId batchId .queued call.now
  | .cancel batchId => db.transitionBatch call.organizationId batchId .cancelled call.now
  | .recordFailure batchId failureCode failureSummary =>
    db.recordFailure call.organizationId batchId failureCode failureSummary call.now
  | .updateCounts batchId counts => db.updateCounts call.organizationId batchId counts
  | .recalculate batchId => db.recalculate call.organizationId batchId
  | .createDataset payload => db.createDataset call.sources call.organizationId payload call.drawn
  | .createVersion datasetId payload =>
    db.createVersion call.sources call.organizationId datasetId payload call.drawn
  | .updateVersionCounts datasetId versionId counts =>
    db.updateVersionCounts call.organizationId datasetId versionId counts
  | .transitionVersion datasetId versionId target =>
    db.transitionVersion call.organizationId datasetId versionId target call.now

/-- The calls as a service; what they return is not looked at. -/
def service : Service Db Call Unit Error := fun db call => (serve db call).map fun db' => (db', ())

def Db.empty : Db where
  batches := []
  datasets := []
  versions := []

end Intel4Ops.Ingestion

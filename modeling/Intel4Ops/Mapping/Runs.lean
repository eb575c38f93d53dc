import Intel4Ops.Mapping.Records

/-!
# The queue of mapping runs

The operations of `MappingExecutionService` on queued runs: `submit`, `claim_next`, `claim_run`,
`heartbeat`, `recover_stale`, `fail_claimed`, `fail` and `retry`. What `fail` and `retry` read and
what they write are definitions of their own, because other sessions may write in between.
-/

namespace Intel4Ops.Mapping

open Lib Table

/-! ## Submission -/

/-- `_validate_submission`. -/
def validateSubmission (db : Db) (organizationId : UUID) (payload : MappingRunCreate) :
    Raises Unit := do
  let _ ← validateRequest db organizationId payload
  ensure (∀ record ∈ payload.records,
    ⟨record.rawRecordReferenceId, organizationId, payload.datasetVersionId⟩ ∈ db.rawRecords)
    (.service "RAW_RECORD_NOT_FOUND")

/-- The queued run of a submission, the root of its attempts. -/
def queuedRun (id organizationId : UUID) (payload : MappingRunCreate) (requestFingerprint : String)
    (now : Instant) : MappingRun where
  id
  organizationId
  datasetVersionId := payload.datasetVersionId
  templateVersionId := payload.templateVersionId
  status := .queued
  idempotencyKey := payload.idempotencyKey
  requestFingerprint
  inputCount := payload.records.length
  rootRunId := some id
  createdAt := now

/-- The stored inputs of a submission, in sequence. -/
def submittedInputs (organizationId runId : UUID) (records : List MappingInputRecord) :
    List MappingRunInput :=
  records.zipIdx.map fun p => ⟨organizationId, runId, p.2, p.1⟩

def runUnderKey (db : Db) (organizationId : UUID) (key : String) : Option MappingRun :=
  db.runs.find? fun r => r.organizationId = organizationId ∧ r.idempotencyKey = key

/-- `submit`: the run under the key, and whether it is a new one. -/
def submit (db : Db) (organizationId : UUID) (payload : MappingRunCreate)
    (requestFingerprint : String) (now : Instant) : Raises (Db × MappingRun × Bool) :=
  match runUnderKey db organizationId payload.idempotencyKey with
  | some existing =>
    if existing.requestFingerprint = requestFingerprint then .ok (db, existing, false)
    else .error (.service "IDEMPOTENCY_CONFLICT")
  | none => do
    validateSubmission db organizationId payload
    let run := queuedRun db.nextId organizationId payload requestFingerprint now
    return ({ db with
      runs := db.runs ++ [run]
      inputs := db.inputs ++ submittedInputs organizationId run.id payload.records
      nextId := db.nextId + 1 }, run, true)

/-! ## Claims -/

/-- `_claim_values`. -/
def MappingRun.claimed (run : MappingRun) (workerId : String) (leaseId : UUID) (now : Instant) :
    MappingRun :=
  { run with
    status := .running
    heartbeatAt := some now
    executionWorkerId := some workerId
    executionLeaseId := some leaseId }

/-- A queued run is claimed under a new lease. -/
def claimRow (db : Db) (run : MappingRun) (workerId : String) (now : Instant) :
    Db × MappingExecutionClaim :=
  ({ writeRun db (run.claimed workerId db.nextId now) with nextId := db.nextId + 1 },
    ⟨run.id, run.organizationId, db.nextId⟩)

/-- The first queued run that no other session has locked. -/
def nextQueued (db : Db) (locked : List UUID) : Option MappingRun :=
  ((db.runs.filter fun r => r.status = .queued ∧ r.id ∉ locked).insertionSort
    fun a b => a.createdAt < b.createdAt ∨ a.createdAt = b.createdAt ∧ a.id ≤ b.id).head?

/-- `claim_next`, which skips the rows that other sessions have locked. -/
def claimNext (db : Db) (locked : List UUID) (workerId : String) (now : Instant) :
    Option (Db × MappingExecutionClaim) :=
  (nextQueued db locked).map fun run => claimRow db run workerId now

/-- `get`. -/
def getRun (db : Db) (organizationId runId : UUID) : Raises MappingRun :=
  orFail (db.runs.find? fun r => r.id = runId ∧ r.organizationId = organizationId)
    (.service "MAPPING_RUN_NOT_FOUND")

/-- `claim_run`. -/
def claimRun (db : Db) (locked : List UUID) (organizationId runId : UUID) (workerId : String)
    (now : Instant) : Raises (Db × MappingExecutionClaim) :=
  match db.runs.find? fun r => r.id = runId ∧ r.organizationId = organizationId ∧
      r.status = .queued ∧ r.id ∉ locked with
  | some run => .ok (claimRow db run workerId now)
  | none => do
    let _ ← getRun db organizationId runId
    .error (.service "MAPPING_RUN_INVALID_TRANSITION")

/-- `heartbeat`, and whether the claim still holds its run. -/
def heartbeat (db : Db) (claim : MappingExecutionClaim) (now : Instant) : Db × Bool :=
  ({ db with
    runs := update (fun r => r.HeldBy claim) (fun r => { r with heartbeatAt := some now })
      db.runs }, db.runs.any fun r => r.HeldBy claim)

/-- A running run whose last heartbeat is too old. -/
def MappingRun.Stale (run : MappingRun) (now : Instant) (staleAfter : ℤ) : Prop :=
  run.status = .running ∧ ∃ beat ∈ run.heartbeatAt, beat < now - staleAfter

instance (run : MappingRun) (now : Instant) (staleAfter : ℤ) :
    Decidable (run.Stale now staleAfter) :=
  inferInstanceAs (Decidable (_ ∧ ∃ beat ∈ run.heartbeatAt, _))

/-- The stale runs that a sweep takes, longest silence first. -/
def staleRuns (db : Db) (locked : List UUID) (now : Instant) (staleAfter : ℤ) (limit : ℕ) :
    List MappingRun :=
  ((db.runs.filter fun r => r.Stale now staleAfter ∧ r.id ∉ locked).insertionSort
    fun a b => a.heartbeatAt.getD 0 < b.heartbeatAt.getD 0 ∨
      a.heartbeatAt = b.heartbeatAt ∧ a.id ≤ b.id).take limit

/-- `recover_stale`, with the runs that it failed. -/
def recoverStale (db : Db) (locked : List UUID) (now : Instant) (staleAfter : ℤ) (limit : ℕ) :
    Db × List (UUID × UUID) :=
  let stale := staleRuns db locked now staleAfter limit
  ({ db with
    runs := update (fun r => r.id ∈ stale.map (·.id))
      (·.failed "MAPPING_EXECUTION_WORKER_LOST" true) db.runs },
    stale.map fun r => (r.organizationId, r.id))

/-- `fail_claimed`: `none` when the lease is lost. -/
def failClaimed (db : Db) (claim : MappingExecutionClaim) (code : String) (retryable : Bool) :
    Option Db :=
  if db.runs.any fun r => r.HeldBy claim then
    some { db with runs := update (fun r => r.HeldBy claim) (·.failed code retryable) db.runs }
  else none

/-! ## Failing a run -/

/-- `transitions`. -/
def transitions : MappingRunStatus → List MappingRunStatus
  | .queued => [.running, .failed]
  | .running => [.completed, .partiallyCompleted, .failed]
  | .created | .completed | .partiallyCompleted | .failed | .cancelled => []

/-- What `fail` reads: a run from which `failed` can be reached. -/
def readFailing (db : Db) (organizationId runId : UUID) : Raises MappingRun := do
  let run ← getRun db organizationId runId
  ensure (.failed ∈ transitions run.status) (.service "MAPPING_RUN_INVALID_TRANSITION")
  return run

/-- The columns that `fail` writes; the lease stays. -/
def MappingRun.markFailed (run : MappingRun) (code : String) (retryable : Bool) : MappingRun :=
  { run with status := .failed, failureCode := some code, failureRetryable := some retryable }

/-- What `fail` writes, by primary key. -/
def writeFailing (db : Db) (runId : UUID) (code : String) (retryable : Bool) : Db :=
  { db with runs := update (fun r => r.id = runId) (·.markFailed code retryable) db.runs }

/-- `fail`, undisturbed by other sessions. -/
def failRun (db : Db) (organizationId runId : UUID) (code : String) (retryable : Bool) :
    Raises Db := do
  let run ← readFailing db organizationId runId
  return writeFailing db run.id code retryable

/-! ## Retries -/

/-- What `retry` reads: the child that an earlier call with the key has created, or a failed run
that may be retried, with its inputs. -/
inductive RetryRead
  | found (child : MappingRun)
  | retryable (predecessor : MappingRun) (inputs : List MappingRunInput)

def inputRows (db : Db) (organizationId runId : UUID) : List MappingRunInput :=
  (db.inputs.filter fun i => i.organizationId = organizationId ∧
    i.mappingRunId = runId).insertionSort fun a b => a.recordSequence ≤ b.recordSequence

/-- The checks of `retry` on the predecessor. -/
def readRetryable (db : Db) (organizationId : UUID) (predecessor : MappingRun) :
    Raises RetryRead := do
  ensure (predecessor.status ≠ .queued ∧ predecessor.status ≠ .running ∧
    predecessor.status ≠ .created) (.service "MAPPING_RUN_ACTIVE")
  ensure (predecessor.status = .failed) (.service "MAPPING_RUN_NOT_RETRYABLE")
  ensure (predecessor.failureRetryable = some true) (.service "MAPPING_RUN_TERMINAL_FAILURE")
  let inputs := inputRows db organizationId predecessor.id
  ensure (inputs.length = predecessor.inputCount) (.service "MAPPING_RUN_TERMINAL_FAILURE")
  return .retryable predecessor inputs

/-- What `retry` reads. -/
def readRetry (db : Db) (organizationId runId : UUID) (key : String) : Raises RetryRead := do
  let predecessor ← getRun db organizationId runId
  match runUnderKey db organizationId key with
  | some existing =>
    if existing.retryOfRunId = some predecessor.id then return .found existing
    else .error (.service "IDEMPOTENCY_CONFLICT")
  | none => readRetryable db organizationId predecessor

/-- The next attempt of a failed run. -/
def retryChild (predecessor : MappingRun) (id : UUID) (key : String) (now : Instant) :
    MappingRun where
  id
  organizationId := predecessor.organizationId
  datasetVersionId := predecessor.datasetVersionId
  templateVersionId := predecessor.templateVersionId
  status := .queued
  idempotencyKey := key
  requestFingerprint := predecessor.requestFingerprint
  inputCount := predecessor.inputCount
  retryOfRunId := some predecessor.id
  rootRunId := some (predecessor.rootRunId.getD predecessor.id)
  attemptNumber := predecessor.attemptNumber + 1
  createdAt := now

/-- Two runs that the unique constraints keep apart: one key, or one predecessor. -/
def MappingRun.Clashes (r r' : MappingRun) : Prop :=
  r.organizationId = r'.organizationId ∧
    (r.idempotencyKey = r'.idempotencyKey ∨
      r.retryOfRunId.isSome = true ∧ r.retryOfRunId = r'.retryOfRunId)

instance (r r' : MappingRun) : Decidable (r.Clashes r') :=
  inferInstanceAs (Decidable (_ ∧ (_ ∨ _ ∧ _)))

/-- What `retry` writes: the next attempt with the inputs, unless there is one already. -/
def writeRetry (db : Db) (organizationId : UUID) (predecessor : MappingRun)
    (inputs : List MappingRunInput) (key : String) (now : Instant) :
    Raises (Db × MappingRun × Bool) :=
  let child := retryChild predecessor db.nextId key now
  match insert MappingRun.Clashes child db.runs with
  | some runs => .ok ({ db with
      runs
      inputs := db.inputs ++ inputs.map fun i => { i with mappingRunId := child.id }
      nextId := db.nextId + 1 }, child, true)
  | none =>
    match db.runs.find? fun r => r.organizationId = organizationId ∧
        r.retryOfRunId = some predecessor.id ∧ r.idempotencyKey = key with
    | some sibling => .ok (db, sibling, false)
    | none => .error (.service "MAPPING_RUN_RETRY_ALREADY_CREATED")

/-- `retry`, undisturbed by other sessions. -/
def retry (db : Db) (organizationId runId : UUID) (key : String) (now : Instant) :
    Raises (Db × MappingRun × Bool) := do
  match ← readRetry db organizationId runId key with
  | .found child => return (db, child, false)
  | .retryable predecessor inputs => writeRetry db organizationId predecessor inputs key now

end Intel4Ops.Mapping

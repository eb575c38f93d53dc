import Intel4Ops.Lib.Except
import Intel4Ops.Lib.Ident
import Intel4Ops.Lib.Service
import Intel4Ops.Lib.Table
import Mathlib.Data.List.Sort

/-!
# Agent jobs: the service

The job and event tables of `app/models/agent_jobs.py` and the operations of
`app/services/agent_job_service.py`. What an operation writes to a job is a function on the row;
the service applies it within one transaction, and the interleaved model applies it to the row a
session has loaded. Rows keep the columns that these operations read or write; the details and the
random keys of events are left out.
-/

namespace Intel4Ops.AgentJobs

open Lib

/-! ## The routing policy -/

inductive AgentJobRiskClass
  | R0
  | R1
  | R2
  | R3
  deriving DecidableEq

def AgentJobRiskClass.value : AgentJobRiskClass → String
  | R0 => "R0"
  | R1 => "R1"
  | R2 => "R2"
  | R3 => "R3"

inductive AgentWorkerProfile
  | qwenR0
  | qwenR1
  | devstralSpecialist
  | geminiSynthesis
  | claudePlatformReview
  | codexImplementation

/-- The model of a profile in `MODEL_PROFILE_PARAMETERS`; premium profiles have none. -/
def AgentWorkerProfile.model : AgentWorkerProfile → Option String
  | qwenR0 => some "qwen/qwen3.5-9b"
  | qwenR1 => some "qwen/qwen3.5-9b"
  | devstralSpecialist => some "mistralai/devstral-small-2-2512"
  | geminiSynthesis => none
  | claudePlatformReview => none
  | codexImplementation => none

structure RoutingRule where
  defaultProfile : AgentWorkerProfile
  (localAllowed ownerGateRequired : Bool)

/-- `_RULES`. -/
def rules : AgentJobRiskClass → RoutingRule
  | .R0 => ⟨.qwenR0, true, false⟩
  | .R1 => ⟨.qwenR1, true, false⟩
  | .R2 => ⟨.claudePlatformReview, false, true⟩
  | .R3 => ⟨.claudePlatformReview, false, true⟩

structure RoutingDecision where
  riskClass : AgentJobRiskClass
  workerProfile : AgentWorkerProfile
  (localAllowed ownerGateRequired : Bool)

/-- `R3_SAFETY_FLAGS`. -/
def r3SafetyFlags : List String :=
  ["fp_explosion_risk", "truth_isolation_risk", "evidence_gate_weakening",
    "arbitrary_policy_proposal", "canonical_architecture_conflict",
    "cross_currency_unsafe_aggregation", "destructive_migration", "security_boundary_change"]

/-- Any safety flag forces `R3`. -/
def classifyRisk (requested : AgentJobRiskClass) (safetyFlags : List String) : AgentJobRiskClass :=
  if safetyFlags.any (· ∈ r3SafetyFlags) then .R3 else requested

def route (requested : AgentJobRiskClass) (safetyFlags : List String := []) : RoutingDecision :=
  let riskClass := classifyRisk requested safetyFlags
  let rule := rules riskClass
  { riskClass, workerProfile := rule.defaultProfile, localAllowed := rule.localAllowed
    ownerGateRequired := rule.ownerGateRequired }

structure EscalationDecision where
  accept : Bool
  nextProfile : Option AgentWorkerProfile
  ownerGateRequired : Bool
  reason : String

def evaluateWorkerResult (riskClass : AgentJobRiskClass) (confidence : Nat)
    (architectureImpact policyDependency workerRequestedEscalation : Bool) : EscalationDecision :=
  match riskClass with
  | .R0 =>
    if workerRequestedEscalation ∨ confidence < 90 then
      ⟨false, some .qwenR1, false,
        "R0 confidence " ++ toString confidence ++ " < 90 (or worker requested escalation)"⟩
    else
      ⟨true, none, false, "R0 accepted"⟩
  | .R1 =>
    if workerRequestedEscalation ∨ confidence < 70 then
      ⟨false, some .claudePlatformReview, true,
        "R1 confidence " ++ toString confidence ++ " < 70 -- Claude escalation required"⟩
    else if confidence < 90 ∨ architectureImpact ∨ policyDependency then
      ⟨false, some .devstralSpecialist, false,
        "R1 confidence " ++ toString confidence ++
          " in [70,90) or an architecture/policy flag was set -- Devstral/Gemini review required"⟩
    else
      ⟨true, none, false, "R1 accepted"⟩
  | riskClass =>
    ⟨false, some .claudePlatformReview, true, riskClass.value ++
      " always requires Claude review and owner approval -- no automatic acceptance"⟩

/-! ## Enumerations -/

inductive AgentJobStatus
  | queued
  | claimed
  | running
  | succeeded
  | failed
  | timedOut
  | escalated
  | ownerReviewRequired
  | cancelled
  deriving DecidableEq

/-- `_TERMINAL_STATUSES`. -/
def terminalStatuses : List AgentJobStatus := [.succeeded, .failed, .timedOut, .cancelled]

inductive AgentJobOwnerApprovalStatus
  | notRequired
  | pending
  | approved
  | rejected
  deriving DecidableEq

def AgentJobOwnerApprovalStatus.value : AgentJobOwnerApprovalStatus → String
  | notRequired => "not_required"
  | pending => "pending"
  | approved => "approved"
  | rejected => "rejected"

inductive AgentJobEvidencePlane
  | production
  | validation
  deriving DecidableEq

inductive AgentJobEventType
  | created
  | routed
  | claimed
  | started
  | succeeded
  | failed
  | timedOut
  | retried
  | escalated
  | ownerReviewRequired
  | ownerApproved
  | ownerRejected
  deriving DecidableEq

inductive AgentJobError
  | service (code message : String) (status : Nat)
  | leaseLost (jobId : UUID)
  | dataError (column : String)
  | integrity (constraint : String)
  deriving DecidableEq

/-- `_fail`. -/
def fail (code message : String) (status : Nat) : AgentJobError := .service code message status

/-! ## Rows -/

structure AgentJob where
  id : UUID
  organizationId : Option UUID
  jobType : String
  riskClass : AgentJobRiskClass
  status : AgentJobStatus
  priority : Int
  evidencePlane : AgentJobEvidencePlane
  (assignedWorker assignedModel inputEvidenceRef resultRef : Option String)
  confidence : Option Nat
  escalationReason : Option String
  createdAt : Instant
  (startedAt completedAt failedAt : Option Instant)
  retryCount : Nat
  (executionTimeMs inputTokens outputTokens reasoningTokens : Option Int)
  (errorCode errorDetail : Option String)
  ownerApprovalRequired : Bool
  ownerApprovalStatus : AgentJobOwnerApprovalStatus
  executionLeaseId : Option UUID
  executionWorkerId : Option String
  heartbeatAt : Option Instant
  clientIdempotencyKey : Option String
  deriving DecidableEq

structure AgentJobEvent where
  agentJobId : UUID
  eventType : AgentJobEventType

/-- The scope of a worker credential; an empty list of job types does not restrict. -/
structure AgentWorkerCredential where
  workerId : String
  allowedRiskClasses : List AgentJobRiskClass
  allowedJobTypes : List String

structure Db where
  jobs : List AgentJob
  events : List AgentJobEvent

def Db.empty : Db := ⟨[], []⟩

/-- `_record_event` for each of the types. -/
def recordEvents (db : Db) (jobId : UUID) (types : List AgentJobEventType) : Db :=
  { db with events := db.events ++ types.map (⟨jobId, ·⟩) }

/-! ## Payloads -/

structure AgentJobCreate where
  jobType : String
  riskClass : AgentJobRiskClass
  evidencePlane : AgentJobEvidencePlane
  priority : Int
  /-- The plane that the evidence package declares. -/
  packagePlane : AgentJobEvidencePlane
  clientIdempotencyKey : Option String

/-- What the service reads of a claim. -/
structure AgentJobClaim where
  (jobId leaseId : UUID)

/-- What the service reads of a validated worker result. -/
structure WorkerStructuredResult where
  confidence : Nat
  (architectureImpact policyDependency escalate : Bool)
  confidence_le : confidence ≤ 100

/-- What validation makes of a raw result. -/
inductive RawResult
  | malformed (error : String)
  | structured (result : WorkerStructuredResult)

/-- The measurements that come with a result. -/
structure Telemetry where
  (executionTimeMs inputTokens outputTokens reasoningTokens : Int)
  modelIdentifier : String

/-! ## What is written to a job -/

namespace AgentJob

/-- `claim_next`. -/
def claim (lease : UUID) (worker : String) (now : Instant) (job : AgentJob) : AgentJob :=
  { job with
    status := .running, executionLeaseId := some lease, executionWorkerId := some worker
    assignedWorker := some worker, heartbeatAt := some now, startedAt := some now }

/-- `heartbeat`. -/
def beat (now : Instant) (job : AgentJob) : AgentJob := { job with heartbeatAt := some now }

/-- Give up the lease. -/
def release (job : AgentJob) : AgentJob :=
  { job with executionLeaseId := none, executionWorkerId := none }

/-- Back into the queue for another attempt. -/
def requeue (job : AgentJob) : AgentJob :=
  { job.release with status := .queued, retryCount := job.retryCount + 1, heartbeatAt := none }

/-- The end of a job without a result. -/
def failWith (now : Instant) (code detail : String) (job : AgentJob) : AgentJob :=
  { job.release with
    status := .failed, failedAt := some now, errorCode := some code, errorDetail := some detail }

/-- One round of the loop of `recover_stale`. -/
def recover (now : Instant) (job : AgentJob) : AgentJob :=
  if job.retryCount < 3 then job.requeue
  else
    { job.release with
      status := .timedOut, heartbeatAt := none, failedAt := some now
      errorCode := some "WORKER_LEASE_STALE"
      errorDetail := some "Heartbeat stale beyond threshold and retry limit exhausted" }

/-- The event that `recover_stale` records. -/
def recoverEvent (job : AgentJob) : AgentJobEventType :=
  if job.retryCount < 3 then .retried else .timedOut

def evaluate (result : WorkerStructuredResult) (job : AgentJob) : EscalationDecision :=
  evaluateWorkerResult job.riskClass result.confidence result.architectureImpact
    result.policyDependency result.escalate

def complete (result : WorkerStructuredResult) (telemetry : Telemetry) (reference : String)
    (now : Instant) (job : AgentJob) : AgentJob :=
  { job.release with
    confidence := some result.confidence, executionTimeMs := some telemetry.executionTimeMs
    inputTokens := some telemetry.inputTokens, outputTokens := some telemetry.outputTokens
    reasoningTokens := some telemetry.reasoningTokens
    assignedModel := some telemetry.modelIdentifier, completedAt := some now
    resultRef := some reference }

/-- A result that is not accepted escalates, to the owner when the decision asks for it. -/
def escalate (decision : EscalationDecision) (job : AgentJob) : AgentJob :=
  let job := { job with status := .escalated, escalationReason := some decision.reason }
  if decision.ownerGateRequired then
    { job with ownerApprovalRequired := true, ownerApprovalStatus := .pending }
  else job

/-- `submit_result`. -/
def submitResult (raw : RawResult) (telemetry : Telemetry) (reference : String) (now : Instant)
    (job : AgentJob) : AgentJob :=
  match raw with
  | .malformed error => job.failWith now "MALFORMED_WORKER_OUTPUT"
      (String.ofList (error.toList.take 2000))
  | .structured result =>
    let completed := job.complete result telemetry reference now
    if (job.evaluate result).accept then { completed with status := .succeeded }
    else completed.escalate (job.evaluate result)

/-- The events of `submit_result`. -/
def submitResultEvents (raw : RawResult) (job : AgentJob) : List AgentJobEventType :=
  match raw with
  | .malformed _ => [.failed]
  | .structured result =>
    if (job.evaluate result).accept then [.succeeded]
    else if (job.evaluate result).ownerGateRequired then [.escalated, .ownerReviewRequired]
    else [.escalated]

/-- `submit_failure`. -/
def submitFailure (code detail : String) (retryable : Bool) (now : Instant) (job : AgentJob) :
    AgentJob :=
  if retryable ∧ job.retryCount < 3 then job.requeue
  else job.failWith now code (String.ofList (detail.toList.take 2000))

/-- The event of `submit_failure`. -/
def submitFailureEvents (retryable : Bool) (job : AgentJob) : List AgentJobEventType :=
  if retryable ∧ job.retryCount < 3 then [.retried] else [.failed]

/-- `apply_owner_decision`. -/
def ownerDecision (approve : Bool) (job : AgentJob) : AgentJob :=
  { job with ownerApprovalStatus := if approve then .approved else .rejected }

/-- The lease of the claim is the one under which the job runs. -/
def HeldBy (claim : AgentJobClaim) (job : AgentJob) : Prop :=
  job.id = claim.jobId ∧ job.status = .running ∧ job.executionLeaseId = some claim.leaseId

instance (claim : AgentJobClaim) (job : AgentJob) : Decidable (job.HeldBy claim) :=
  inferInstanceAs (Decidable (_ ∧ _))

/-- The order in which queued jobs are claimed. -/
def DispatchedBefore (a b : AgentJob) : Prop :=
  b.priority < a.priority ∨ a.priority = b.priority ∧
    (a.createdAt < b.createdAt ∨ a.createdAt = b.createdAt ∧ a.id ≤ b.id)

instance : DecidableRel DispatchedBefore := fun _ _ => inferInstanceAs (Decidable (_ ∨ _))

def ClaimableBy (credential : AgentWorkerCredential) (job : AgentJob) : Prop :=
  job.status = .queued ∧ job.riskClass ∈ credential.allowedRiskClasses ∧
    (credential.allowedJobTypes = [] ∨ job.jobType ∈ credential.allowedJobTypes)

instance (credential : AgentWorkerCredential) (job : AgentJob) :
    Decidable (job.ClaimableBy credential) := inferInstanceAs (Decidable (_ ∧ _))

/-- The heartbeat of a running job is older than the threshold. -/
def Stale (now staleAfter : Instant) (job : AgentJob) : Prop :=
  job.status = .running ∧ job.heartbeatAt.any (· < now - staleAfter)

instance (now staleAfter : Instant) (job : AgentJob) : Decidable (job.Stale now staleAfter) :=
  inferInstanceAs (Decidable (_ ∧ _))

/-- The order in which stale jobs are recovered; a stale job has a heartbeat. -/
def StaleBefore (a b : AgentJob) : Prop :=
  a.heartbeatAt.getD 0 < b.heartbeatAt.getD 0 ∨
    a.heartbeatAt.getD 0 = b.heartbeatAt.getD 0 ∧ a.id ≤ b.id

instance : DecidableRel StaleBefore := fun _ _ => inferInstanceAs (Decidable (_ ∨ _))

end AgentJob

/-! ## Columns -/

/-- A `String(n)` column. -/
def stringColumn (column : String) (n : Nat) (s : String) : Except AgentJobError Unit :=
  ensure (s.length ≤ n) (.dataError column)

/-- An `Integer` column. -/
def integerColumn (column : String) (x : Int) : Except AgentJobError Unit :=
  ensure (-2147483648 ≤ x ∧ x ≤ 2147483647) (.dataError column)

/-- The columns that a result writes. -/
def telemetryColumns (telemetry : Telemetry) : Except AgentJobError Unit := do
  integerColumn "execution_time_ms" telemetry.executionTimeMs
  integerColumn "input_tokens" telemetry.inputTokens
  integerColumn "output_tokens" telemetry.outputTokens
  integerColumn "reasoning_tokens" telemetry.reasoningTokens
  stringColumn "assigned_model" 150 telemetry.modelIdentifier

/-- The columns that a submitted result writes; a malformed one writes texts of fixed length. -/
def resultColumns (raw : RawResult) (telemetry : Telemetry) (reference : String) :
    Except AgentJobError Unit :=
  match raw with
  | .malformed _ => .ok ()
  | .structured _ => do
    telemetryColumns telemetry
    stringColumn "result_ref" 500 reference

/-- The columns that a reported failure writes unless the job goes back into the queue. -/
def failureColumns (code : String) (retryable : Bool) (job : AgentJob) :
    Except AgentJobError Unit :=
  ensure ((retryable ∧ job.retryCount < 3) ∨ code.length ≤ 100) (.dataError "error_code")

/-! ## Create -/

/-- `_enforce_evidence_plane`. -/
def enforceEvidencePlane (payload : AgentJobCreate) : Except AgentJobError Unit :=
  ensure (payload.packagePlane = payload.evidencePlane) (fail "EVIDENCE_PLANE_MISMATCH"
    "evidence_package.evidence_plane must match the job's declared evidence_plane" 409)

/-- The stored job of the organization with the client's idempotency key. -/
def findPrior (db : Db) (org : Option UUID) (key : Option String) : Option AgentJob := do
  let key ← key
  db.jobs.find? fun job => job.organizationId = org ∧ job.clientIdempotencyKey = some key

/-- The row of a new job: gated by the owner, or queued. -/
def newJob (org : Option UUID) (payload : AgentJobCreate) (id : UUID) (reference : String)
    (now : Instant) : AgentJob :=
  let routing := route payload.riskClass
  { id, organizationId := org, jobType := payload.jobType, riskClass := routing.riskClass
    status := if routing.ownerGateRequired then .ownerReviewRequired else .queued
    priority := payload.priority, evidencePlane := payload.evidencePlane, assignedWorker := none
    assignedModel := if routing.localAllowed then routing.workerProfile.model else none
    inputEvidenceRef := some reference, resultRef := none, confidence := none
    escalationReason := none, createdAt := now, startedAt := none, completedAt := none
    failedAt := none, retryCount := 0, executionTimeMs := none, inputTokens := none
    outputTokens := none, reasoningTokens := none, errorCode := none, errorDetail := none
    ownerApprovalRequired := routing.ownerGateRequired
    ownerApprovalStatus := if routing.ownerGateRequired then .pending else .notRequired
    executionLeaseId := none, executionWorkerId := none, heartbeatAt := none
    clientIdempotencyKey := payload.clientIdempotencyKey }

def newJobEvents (payload : AgentJobCreate) : List AgentJobEventType :=
  if (route payload.riskClass).ownerGateRequired then [.created, .routed, .ownerReviewRequired]
  else [.created, .routed]

/-- `create_job`; `reference` is where the storage keeps the evidence package. -/
def createJob (db : Db) (org : Option UUID) (payload : AgentJobCreate) (id : UUID)
    (reference : String) (now : Instant) : Except AgentJobError (Db × AgentJob) := do
  enforceEvidencePlane payload
  match findPrior db org payload.clientIdempotencyKey with
  | some existing => return (db, existing)
  | none =>
    stringColumn "job_type" 100 payload.jobType
    integerColumn "priority" payload.priority
    stringColumn "client_idempotency_key" 200 (payload.clientIdempotencyKey.getD "")
    stringColumn "input_evidence_ref" 500 reference
    let job := newJob org payload id reference now
    let jobs ← orFail (Table.insert (fun a b => a.id = b.id) job db.jobs) (.integrity "agent_jobs")
    return (recordEvents { db with jobs } id (newJobEvents payload), job)

def get (db : Db) (org : Option UUID) (jobId : UUID) : Except AgentJobError AgentJob :=
  orFail (db.jobs.find? fun job => job.id = jobId ∧ job.organizationId = org)
    (fail "AGENT_JOB_NOT_FOUND" "Agent job not found" 404)

/-! ## Claim, heartbeat and recovery -/

/-- Write `f` to the job with the identifier and record events. -/
def writeJob (db : Db) (jobId : UUID) (f : AgentJob → AgentJob) (types : List AgentJobEventType) :
    Db :=
  recordEvents { db with jobs := Table.update (·.id = jobId) f db.jobs } jobId types

/-- The job that a credential claims next; `free` leaves out the rows that are locked. -/
def nextJob (jobs : List AgentJob) (credential : AgentWorkerCredential)
    (free : AgentJob → Bool := fun _ => true) : Option AgentJob :=
  ((jobs.filter fun job => job.ClaimableBy credential ∧ free job).insertionSort
    AgentJob.DispatchedBefore).head?

/-- `claim_next`; the lease is drawn. -/
def claimNext (db : Db) (credential : AgentWorkerCredential) (lease : UUID) (now : Instant) :
    Db × Option AgentJobClaim :=
  match nextJob db.jobs credential with
  | none => (db, none)
  | some job =>
    (writeJob db job.id (.claim lease credential.workerId now) [.claimed, .started],
      some ⟨job.id, lease⟩)

def heartbeat (db : Db) (claim : AgentJobClaim) (now : Instant) : Db × Bool :=
  ({ db with jobs := Table.update (·.HeldBy claim) (.beat now) db.jobs },
    db.jobs.countP (·.HeldBy claim) = 1)

/-- The jobs that one sweep recovers; `free` leaves out the rows that are locked. -/
def staleJobs (jobs : List AgentJob) (now staleAfter : Instant) (limit : Nat)
    (free : AgentJob → Bool := fun _ => true) : List AgentJob :=
  ((jobs.filter fun job => job.Stale now staleAfter ∧ free job).insertionSort
    AgentJob.StaleBefore).take limit

/-- The loop of `recover_stale` over the jobs that it has loaded. -/
def recoverJobs (db : Db) (stale : List AgentJob) (now : Instant) : Db :=
  { jobs := Table.update (fun job => job.id ∈ stale.map (·.id)) (.recover now) db.jobs
    events := db.events ++ stale.map fun job => ⟨job.id, job.recoverEvent⟩ }

def recoverStale (db : Db) (now staleAfter : Instant) (limit : Nat) : Db × List UUID :=
  let stale := staleJobs db.jobs now staleAfter limit
  (recoverJobs db stale now, stale.map (·.id))

/-! ## Submissions -/

def heldJob (db : Db) (claim : AgentJobClaim) : Except AgentJobError AgentJob :=
  orFail (db.jobs.find? (·.HeldBy claim)) (.leaseLost claim.jobId)

/-- `submit_result`; `reference` is where the storage keeps the result. -/
def submitResult (db : Db) (claim : AgentJobClaim) (raw : RawResult) (telemetry : Telemetry)
    (reference : String) (now : Instant) : Except AgentJobError (Db × AgentJob) := do
  let job ← heldJob db claim
  resultColumns raw telemetry reference
  let f := AgentJob.submitResult raw telemetry reference now
  return (writeJob db job.id f (job.submitResultEvents raw), f job)

def submitFailure (db : Db) (claim : AgentJobClaim) (code detail : String) (retryable : Bool)
    (now : Instant) : Except AgentJobError (Db × AgentJob) := do
  let job ← heldJob db claim
  failureColumns code retryable job
  let f := AgentJob.submitFailure code detail retryable now
  return (writeJob db job.id f (job.submitFailureEvents retryable), f job)

/-! ## Owner approval -/

/-- `get` and `apply_owner_decision`. -/
def applyOwnerDecision (db : Db) (org : Option UUID) (jobId : UUID) (approve : Bool) :
    Except AgentJobError (Db × AgentJob) := do
  let job ← get db org jobId
  ensure (job.ownerApprovalRequired = true)
    (fail "NO_APPROVAL_PENDING" "This job does not require owner approval" 409)
  ensure (job.ownerApprovalStatus = .pending) (fail "APPROVAL_ALREADY_DECIDED"
    ("Owner approval already recorded as '" ++ job.ownerApprovalStatus.value ++ "'") 409)
  let event := if approve then AgentJobEventType.ownerApproved else .ownerRejected
  return (writeJob db job.id (.ownerDecision approve) [event], job.ownerDecision approve)

/-! ## Requests -/

inductive Request
  | createJob (org : Option UUID) (payload : AgentJobCreate)
  | claimNext (credential : AgentWorkerCredential)
  | heartbeat (claim : AgentJobClaim)
  | recoverStale (staleAfter : Instant) (limit : Nat)
  | submitResult (claim : AgentJobClaim) (raw : RawResult) (telemetry : Telemetry)
  | submitFailure (claim : AgentJobClaim) (code detail : String) (retryable : Bool)
  | applyOwnerDecision (org : Option UUID) (jobId : UUID) (approve : Bool)

/-- A request with the time it is served, the identifier drawn and the storage's reference. -/
structure Call where
  now : Instant
  drawn : UUID
  reference : String
  request : Request

inductive Reply
  | job (job : AgentJob)
  | claim (claim : Option AgentJobClaim)
  | beat (held : Bool)
  | recovered (ids : List UUID)

/-- Serve one request in a transaction of its own. -/
def serve : Service Db Call Reply AgentJobError := fun db call =>
  match call.request with
  | .createJob org payload =>
    (createJob db org payload call.drawn call.reference call.now).map (Prod.map id .job)
  | .claimNext credential => .ok ((claimNext db credential call.drawn call.now).map id .claim)
  | .heartbeat claim => .ok ((heartbeat db claim call.now).map id .beat)
  | .recoverStale staleAfter limit =>
    .ok ((recoverStale db call.now staleAfter limit).map id .recovered)
  | .submitResult claim raw telemetry =>
    (submitResult db claim raw telemetry call.reference call.now).map (Prod.map id .job)
  | .submitFailure claim code detail retryable =>
    (submitFailure db claim code detail retryable call.now).map (Prod.map id .job)
  | .applyOwnerDecision org jobId approve =>
    (applyOwnerDecision db org jobId approve).map (Prod.map id .job)

end Intel4Ops.AgentJobs

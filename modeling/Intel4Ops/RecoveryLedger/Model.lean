import Intel4Ops.Actions.Engine
import Intel4Ops.Economics.Engine
import Intel4Ops.Lib.Ident
import Intel4Ops.Lib.Service
import Intel4Ops.Lib.Table

/-!
# Recovery ledger: the service

The stored tables of `app/models/recovery_ledger.py`, the engine of
`app/engines/recovery_ledger_engine.py` and the operations of
`app/services/recovery_ledger_service.py`: recovery cases, executions, measurements, finance
verifications, the append-only ledger and the audit trail.

Amounts are decimals: an arithmetic operation rounds to the 28 digits of the decimal context, a
stored amount to the twelve places of its column. Rows keep the columns that these operations read
or compute. The tables owned by other services (`External`) may change between any two requests.
-/

namespace Intel4Ops.RecoveryLedger

open Lib Lib.Decimal Intel4Ops.Economics Intel4Ops.Actions Table Prod

/-! ## Enumerations -/

inductive ValueCategory
  | revenueRecovery
  | costReduction
  | cashAcceleration
  | marginProtection
  deriving DecidableEq

inductive LedgerEntryType
  | verifiedRecovery
  | adjustmentPositive
  | adjustmentNegative
  | reversal
  | reinstatement
  deriving DecidableEq

inductive ExecutionStatus
  | planned
  | inProgress
  | awaitingMeasurement
  | measured
  deriving DecidableEq

def ExecutionStatus.value : ExecutionStatus → String
  | planned => "planned"
  | inProgress => "in_progress"
  | awaitingMeasurement => "awaiting_measurement"
  | measured => "measured"

inductive MeasurementStatus
  | draft
  | submitted
  | needsInformation
  | rejected
  | verified
  deriving DecidableEq

inductive Decision
  | approved
  | needsInformation
  | rejected
  deriving DecidableEq

inductive Direction
  | positive
  | negative

/-! ## Errors -/

/-- How a request fails: an error of the service, or an exception that it does not translate. -/
inductive RecoveryLedgerError
  | service (code message : String) (status : Nat)
  | valueError (message : String)
  | invalidOperation
  | integrity (constraint : String)
  | dataError (column : String)
  deriving DecidableEq

/-- A `RecoveryLedgerError` with its default status. -/
def fail (code message : String) (status : Nat := 422) : RecoveryLedgerError :=
  .service code message status

/-! ## Rows -/

structure RecoveryCase where
  (id organizationId opportunityId baselineId : UUID)
  (caseCode idempotencyKey title description status currencyCode : String)
  expectedValue : ℚ
  createdByUserId : UUID
  deriving DecidableEq

structure RecoveryExecution where
  (id organizationId recoveryCaseId actionId : UUID)
  idempotencyKey : String
  status : ExecutionStatus
  (startedAt completedAt : Option Instant)
  createdByUserId : UUID
  deriving DecidableEq

structure RecoveryValueMeasurement where
  (id organizationId executionId : UUID)
  idempotencyKey : String
  category : ValueCategory
  status : MeasurementStatus
  (baselineAmount actualAmount realizedValue : ℚ)
  currencyCode : String
  submittedByUserId : Option UUID
  submittedAt : Option Instant
  createdByUserId : UUID
  deriving DecidableEq

/-- Only the measurement of an evidence link is read. -/
structure RecoveryEvidenceLink where
  (organizationId measurementId : UUID)
  deriving DecidableEq

structure RecoveryFinanceVerification where
  (id organizationId measurementId : UUID)
  idempotencyKey : String
  decision : Decision
  verifiedAmount : ℚ
  (currencyCode rationale : String)
  reviewerUserId : UUID
  deriving DecidableEq

structure VerifiedValueLedgerEntry where
  (id organizationId recoveryCaseId : UUID)
  (measurementId verificationId reversalOfLedgerEntryId adjustmentOfLedgerEntryId : Option UUID)
  entrySequence : Nat
  entryType : LedgerEntryType
  amount : ℚ
  (currencyCode idempotencyKey reason : String)
  postedByUserId : UUID
  deriving DecidableEq

structure RecoveryAuditEvent where
  (organizationId recoveryCaseId : UUID)
  eventType : String
  actorUserId : UUID
  (idempotencyKey reason : String)
  deriving DecidableEq

structure RecoveryOpportunity where
  (id organizationId : UUID)
  status : OpportunityStatus
  deriving DecidableEq

/-- `expectedNetBenefit` is the decimal that the frozen snapshot holds under that key. -/
structure EconomicBaselineVersion where
  (id organizationId opportunityId : UUID)
  currencyCode : String
  expectedNetBenefit : ℚ
  deriving DecidableEq

structure OperationalAction where
  (id organizationId : UUID)
  status : ActionStatus
  deriving DecidableEq

structure OpportunityAction where
  (organizationId opportunityId actionId : UUID)
  deriving DecidableEq

/-- The tables of other services that the operations read. -/
structure External where
  opportunities : List RecoveryOpportunity
  baselines : List EconomicBaselineVersion
  actions : List OperationalAction
  opportunityActions : List OpportunityAction
  deriving DecidableEq

structure Db where
  external : External
  cases : List RecoveryCase
  executions : List RecoveryExecution
  measurements : List RecoveryValueMeasurement
  evidenceLinks : List RecoveryEvidenceLink
  verifications : List RecoveryFinanceVerification
  ledgerEntries : List VerifiedValueLedgerEntry
  auditEvents : List RecoveryAuditEvent
  deriving DecidableEq

/-- Nothing recorded yet, over any tables of the other services. -/
def Db.empty (external : External) : Db := ⟨external, [], [], [], [], [], [], []⟩

/-! ## Payloads -/

structure CaseCreate where
  (opportunityId baselineId : UUID)
  (idempotencyKey title description : String)

/-- A field is absent, or present with a value that may be null. -/
structure CaseUpdate where
  (title description status : Option (Option String))

structure ExecutionCreate where
  actionId : UUID
  idempotencyKey : String

inductive ExecutionTransition
  | start
  | complete
  deriving DecidableEq

def ExecutionTransition.value : ExecutionTransition → String
  | start => "start"
  | complete => "complete"

/-- What `Decimal(str(value))` makes of an entry of `calculation_inputs`. -/
inductive CalculationInput
  | absent
  | malformed
  | nonFinite
  | finite (value : ℚ)

structure MeasurementCreate where
  idempotencyKey : String
  category : ValueCategory
  (baselineAmount actualAmount : ℚ)
  currencyCode : String
  daysAccelerated : CalculationInput := .absent
  annualRate : CalculationInput := .absent
  /-- The number of evidence items; the schema asks for at least one. -/
  evidence : Nat := 1
  evidence_pos : 0 < evidence := by decide

structure FinanceReviewCreate where
  idempotencyKey : String
  /-- `true` for `rejected`, `false` for `needs_information`. -/
  rejected : Bool
  rationale : String

structure VerifyCreate where
  idempotencyKey : String
  verifiedAmount : ℚ
  (currencyCode rationale : String)
  verifiedAmount_pos : 0 < verifiedAmount

structure LedgerMutationCreate where
  idempotencyKey : String
  amount : ℚ
  reason : String
  direction : Option Direction := none
  amount_pos : 0 < amount

/-! ## The engine -/

/-- The decimal of a calculation input: missing is `None`, and malformed text is an invalid
operation. A number that is not finite passes here and fails where it is used. -/
def CalculationInput.decimal : CalculationInput → Except RecoveryLedgerError (Option (Option ℚ))
  | .absent => .ok none
  | .malformed => .error .invalidOperation
  | .nonFinite => .ok (some none)
  | .finite value => .ok (some (some value))

/-- The value of accelerated cash over a number of days at an annual rate. -/
def cashAcceleration (actualAmount : ℚ) (daysAccelerated annualRate : Option (Option ℚ)) :
    Except RecoveryLedgerError ℚ :=
  match daysAccelerated, annualRate with
  | some (some days), some (some rate) => do
    ensure (¬ (days < 0 ∨ ¬ (0 ≤ rate ∧ rate ≤ 1)))
      (.valueError "cash acceleration inputs are outside supported bounds")
    return context (context (context (actualAmount * rate) * days) / 365)
  | some _, some _ => .error .invalidOperation
  | _, _ => .error (.valueError "cash acceleration requires days_accelerated and annual_rate")

/-- `calculate_realized_value`. The currency was matched against that of the case. -/
def calculateRealizedValue (payload : MeasurementCreate)
    (daysAccelerated annualRate : Option (Option ℚ)) : Except RecoveryLedgerError ℚ := do
  ensure (payload.currencyCode = payload.currencyCode.toUpper ∧ payload.currencyCode.length = 3)
    (.valueError "currency_code must be a three-letter uppercase code")
  let result ←
    match payload.category with
    | .revenueRecovery => pure (context (payload.actualAmount - payload.baselineAmount))
    | .marginProtection => pure (context (payload.actualAmount - payload.baselineAmount))
    | .costReduction => pure (context (payload.baselineAmount - payload.actualAmount))
    | .cashAcceleration => cashAcceleration payload.actualAmount daysAccelerated annualRate
  orFail (quantize halfEven 12 result) .invalidOperation

/-! ## Columns and unique constraints -/

/-- A `Numeric(38, 12)` column. -/
def amountColumn (column : String) (x : ℚ) : Except RecoveryLedgerError ℚ :=
  orFail (numeric 38 12 x) (.dataError column)

def RecoveryCase.Clash (a b : RecoveryCase) : Prop :=
  a.id = b.id ∨ a.caseCode = b.caseCode ∨
    a.organizationId = b.organizationId ∧ a.idempotencyKey = b.idempotencyKey

instance (a b : RecoveryCase) : Decidable (a.Clash b) := inferInstanceAs (Decidable (_ ∨ _))

def RecoveryExecution.Clash (a b : RecoveryExecution) : Prop :=
  a.id = b.id ∨ a.organizationId = b.organizationId ∧ a.idempotencyKey = b.idempotencyKey

instance (a b : RecoveryExecution) : Decidable (a.Clash b) := inferInstanceAs (Decidable (_ ∨ _))

def RecoveryValueMeasurement.Clash (a b : RecoveryValueMeasurement) : Prop :=
  a.id = b.id ∨ a.organizationId = b.organizationId ∧ a.idempotencyKey = b.idempotencyKey

instance (a b : RecoveryValueMeasurement) : Decidable (a.Clash b) :=
  inferInstanceAs (Decidable (_ ∨ _))

/-- Primary key and `uq_recovery_verification_idempotency`. -/
def RecoveryFinanceVerification.Clash (a b : RecoveryFinanceVerification) : Prop :=
  a.id = b.id ∨ a.organizationId = b.organizationId ∧ a.idempotencyKey = b.idempotencyKey

instance (a b : RecoveryFinanceVerification) : Decidable (a.Clash b) :=
  inferInstanceAs (Decidable (_ ∨ _))

/-- Primary key, `uq_verified_ledger_idempotency` and `uq_verified_ledger_case_sequence`. -/
def VerifiedValueLedgerEntry.Clash (a b : VerifiedValueLedgerEntry) : Prop :=
  a.id = b.id ∨ a.organizationId = b.organizationId ∧ a.idempotencyKey = b.idempotencyKey ∨
    a.recoveryCaseId = b.recoveryCaseId ∧ a.entrySequence = b.entrySequence

instance (a b : VerifiedValueLedgerEntry) : Decidable (a.Clash b) :=
  inferInstanceAs (Decidable (_ ∨ _))

/-- `uq_recovery_audit_idempotency`. -/
def RecoveryAuditEvent.Clash (a b : RecoveryAuditEvent) : Prop :=
  a.organizationId = b.organizationId ∧ a.idempotencyKey = b.idempotencyKey

instance (a b : RecoveryAuditEvent) : Decidable (a.Clash b) := inferInstanceAs (Decidable (_ ∧ _))

/-- `_audit`: the row is written with the transaction; its key has at most 255 characters. -/
def audit (db : Db) (case : RecoveryCase) (eventType : String) (actor : UUID) (key reason : String) :
    Except RecoveryLedgerError Db := do
  ensure (key.length ≤ 255) (.dataError "recovery_audit_events.idempotency_key")
  let events ← orFail (insert RecoveryAuditEvent.Clash
    { organizationId := case.organizationId, recoveryCaseId := case.id, eventType
      actorUserId := actor, idempotencyKey := key, reason } db.auditEvents)
    (.integrity "uq_recovery_audit_idempotency")
  return { db with auditEvents := events }

/-! ## Lookups -/

def getCase (db : Db) (org caseId : UUID) : Except RecoveryLedgerError RecoveryCase :=
  orFail (db.cases.find? fun r => r.id = caseId ∧ r.organizationId = org)
    (fail "NOT_FOUND" "Recovery case not found" 404)

/-- `_execution`. -/
def getExecution (db : Db) (org executionId : UUID) :
    Except RecoveryLedgerError (RecoveryExecution × RecoveryCase) := do
  let row ← orFail (db.executions.find? fun r => r.id = executionId ∧ r.organizationId = org)
    (fail "NOT_FOUND" "Recovery execution not found" 404)
  let case ← getCase db org row.recoveryCaseId
  return (row, case)

/-- `_measurement`. -/
def getMeasurement (db : Db) (org measurementId : UUID) :
    Except RecoveryLedgerError (RecoveryValueMeasurement × RecoveryCase) := do
  let row ← orFail (db.measurements.find? fun r => r.id = measurementId ∧ r.organizationId = org)
    (fail "NOT_FOUND" "Recovery measurement not found" 404)
  let (_, case) ← getExecution db org row.executionId
  return (row, case)

def getLedger (db : Db) (org entryId : UUID) :
    Except RecoveryLedgerError VerifiedValueLedgerEntry :=
  orFail (db.ledgerEntries.find? fun r => r.id = entryId ∧ r.organizationId = org)
    (fail "NOT_FOUND" "Ledger entry not found" 404)

/-- `_require_separate_reviewer`. -/
def requireSeparateReviewer (row : RecoveryValueMeasurement) (actor : UUID) :
    Except RecoveryLedgerError Unit :=
  ensure (row.submittedByUserId ≠ some actor)
    (fail "SEGREGATION_OF_DUTIES" "Submitter cannot finance-approve the same measurement" 403)

/-! ## Cases and executions -/

def approvedBaseline (db : Db) (org : UUID) (payload : CaseCreate) :
    Except RecoveryLedgerError (RecoveryOpportunity × EconomicBaselineVersion) := do
  let missing := fail "BASELINE_NOT_FOUND" "Approved baseline was not found" 404
  let opportunity ← orFail (db.external.opportunities.find? fun r =>
    r.id = payload.opportunityId ∧ r.organizationId = org) missing
  let baseline ← orFail (db.external.baselines.find? fun r =>
    r.id = payload.baselineId ∧ r.organizationId = org) missing
  ensure (baseline.opportunityId = payload.opportunityId) missing
  ensure (opportunity.status = .approvedForAction)
    (fail "BASELINE_NOT_APPROVED" "Opportunity must have an approved baseline")
  return (opportunity, baseline)

/-- `create_case`; `caseCode` is drawn. -/
def createCase (db : Db) (org : UUID) (payload : CaseCreate) (actor id : UUID)
    (caseCode : String) : Except RecoveryLedgerError (Db × RecoveryCase) :=
  match db.cases.find? fun r =>
      r.organizationId = org ∧ r.idempotencyKey = payload.idempotencyKey with
  | some prior => .ok (db, prior)
  | none => do
    let (opportunity, baseline) ← approvedBaseline db org payload
    let expectedValue ← amountColumn "expected_value" baseline.expectedNetBenefit
    let row : RecoveryCase :=
      { id, organizationId := org, opportunityId := opportunity.id, baselineId := baseline.id
        caseCode, idempotencyKey := payload.idempotencyKey, title := payload.title
        description := payload.description, status := "approved"
        currencyCode := baseline.currencyCode, expectedValue, createdByUserId := actor }
    let cases ← orFail (insert RecoveryCase.Clash row db.cases) (.integrity "recovery_cases")
    let db ← audit { db with cases } row "case_created" actor ("case:" ++ payload.idempotencyKey)
      "Recovery case created"
    return (db, row)

/-- Write the fields that the payload sets. -/
def RecoveryCase.set (payload : CaseUpdate) (row : RecoveryCase) : RecoveryCase :=
  { row with
    title := (payload.title.getD (some row.title)).getD row.title
    description := (payload.description.getD (some row.description)).getD row.description
    status := (payload.status.getD (some row.status)).getD row.status }

/-- `update_case`; a field set to null violates its column. -/
def updateCase (db : Db) (org caseId : UUID) (payload : CaseUpdate) (actor drawn : UUID) :
    Except RecoveryLedgerError (Db × RecoveryCase) := do
  let row ← getCase db org caseId
  ensure (payload.title ≠ some none ∧ payload.description ≠ some none ∧
    payload.status ≠ some none) (.integrity "recovery_cases not null")
  let cases := update (·.id = row.id) (RecoveryCase.set payload) db.cases
  let db ← audit { db with cases } row "case_updated" actor ("case-update:" ++ toString drawn)
    "Recovery case updated"
  return (db, row.set payload)

def allowedActionStatuses : List ActionStatus :=
  [.approved, .assigned, .scheduled, .inProgress, .blocked, .completed, .verificationPending,
    .verified]

def createExecution (db : Db) (org caseId : UUID) (payload : ExecutionCreate) (actor id : UUID) :
    Except RecoveryLedgerError (Db × RecoveryExecution) := do
  let case ← getCase db org caseId
  match db.executions.find? fun r =>
      r.organizationId = org ∧ r.idempotencyKey = payload.idempotencyKey with
  | some prior => return (db, prior)
  | none =>
    let missing := fail "ACTION_NOT_LINKED" "Action is not linked to this opportunity" 404
    let action ← orFail (db.external.actions.find? fun r =>
      r.id = payload.actionId ∧ r.organizationId = org) missing
    ensure (db.external.opportunityActions.any fun r => r.organizationId = org ∧
      r.opportunityId = case.opportunityId ∧ r.actionId = payload.actionId) missing
    ensure (action.status ∈ allowedActionStatuses)
      (fail "ACTION_NOT_APPROVED" "Action must be approved before recovery execution")
    let row : RecoveryExecution :=
      { id, organizationId := org, recoveryCaseId := case.id, actionId := action.id
        idempotencyKey := payload.idempotencyKey, status := .planned, startedAt := none
        completedAt := none, createdByUserId := actor }
    let executions ← orFail (insert RecoveryExecution.Clash row db.executions)
      (.integrity "recovery_executions")
    let db ← audit { db with executions } case "execution_created" actor
      ("execution:" ++ payload.idempotencyKey) "Recovery execution created"
    return (db, row)

/-- The row after a transition, when its status allows the transition. -/
def RecoveryExecution.move (transition : ExecutionTransition) (now : Instant)
    (row : RecoveryExecution) : Option RecoveryExecution :=
  match transition, row.status with
  | .start, .planned => some { row with status := .inProgress, startedAt := some now }
  | .complete, .inProgress => some { row with status := .awaitingMeasurement, completedAt := some now }
  | _, _ => none

def transitionExecution (db : Db) (org executionId : UUID) (transition : ExecutionTransition)
    (actor : UUID) (now : Instant) : Except RecoveryLedgerError (Db × RecoveryExecution) := do
  let (row, case) ← getExecution db org executionId
  let moved ← orFail (row.move transition now) (fail "INVALID_TRANSITION"
    ("Cannot " ++ transition.value ++ " execution from " ++ row.status.value) 409)
  let executions := update (·.id = row.id) (fun _ => moved) db.executions
  let db ← audit { db with executions } case ("execution_" ++ transition.value ++ "ed") actor
    (transition.value ++ ":" ++ toString executionId ++ ":" ++ toString now)
    ("Execution " ++ transition.value ++ "ed")
  return (db, moved)

/-! ## Measurements -/

/-- The part of `create_measurement` behind the replay check. -/
def createNewMeasurement (db : Db) (org : UUID) (execution : RecoveryExecution)
    (case : RecoveryCase) (payload : MeasurementCreate) (actor id : UUID) :
    Except RecoveryLedgerError (Db × RecoveryValueMeasurement) := do
  ensure (execution.status = .awaitingMeasurement ∨ execution.status = .measured)
    (fail "EXECUTION_NOT_COMPLETE" "Execution must be completed before measurement")
  ensure (payload.currencyCode = case.currencyCode)
    (fail "CURRENCY_MISMATCH" "Measurement currency must match approved baseline")
  let days ← payload.daysAccelerated.decimal
  let rate ← payload.annualRate.decimal
  let realized ← calculateRealizedValue payload days rate
  let baselineAmount ← amountColumn "baseline_amount" payload.baselineAmount
  let actualAmount ← amountColumn "actual_amount" payload.actualAmount
  let realizedValue ← amountColumn "realized_value" realized
  let row : RecoveryValueMeasurement :=
    { id, organizationId := org, executionId := execution.id
      idempotencyKey := payload.idempotencyKey, category := payload.category, status := .draft
      baselineAmount, actualAmount, realizedValue, currencyCode := payload.currencyCode
      submittedByUserId := none, submittedAt := none, createdByUserId := actor }
  let measurements ← orFail (insert RecoveryValueMeasurement.Clash row db.measurements)
    (.integrity "recovery_value_measurements")
  let db ← audit
    { db with
      measurements
      evidenceLinks := db.evidenceLinks ++
        List.replicate payload.evidence { organizationId := org, measurementId := id }
      executions := update (·.id = execution.id)
        (fun r => { r with status := .measured }) db.executions }
    case "measurement_created" actor ("measurement:" ++ payload.idempotencyKey)
    "Realized value measured"
  return (db, row)

def createMeasurement (db : Db) (org executionId : UUID) (payload : MeasurementCreate)
    (actor id : UUID) : Except RecoveryLedgerError (Db × RecoveryValueMeasurement) := do
  let (execution, case) ← getExecution db org executionId
  match db.measurements.find? fun r =>
      r.organizationId = org ∧ r.idempotencyKey = payload.idempotencyKey with
  | some prior => return (db, prior)
  | none => createNewMeasurement db org execution case payload actor id

/-- Submit for finance review. -/
def RecoveryValueMeasurement.submit (actor : UUID) (now : Instant)
    (row : RecoveryValueMeasurement) : RecoveryValueMeasurement :=
  { row with status := .submitted, submittedByUserId := some actor, submittedAt := some now }

/-- Write `f` to the row of `row`. -/
def writeMeasurement (db : Db) (row : RecoveryValueMeasurement)
    (f : RecoveryValueMeasurement → RecoveryValueMeasurement) : Db :=
  { db with measurements := update (·.id = row.id) f db.measurements }

def submitMeasurement (db : Db) (org measurementId actor : UUID) (now : Instant) :
    Except RecoveryLedgerError (Db × RecoveryValueMeasurement) := do
  let (row, case) ← getMeasurement db org measurementId
  let evidenceCount := db.evidenceLinks.countP fun e =>
    e.organizationId = org ∧ e.measurementId = row.id
  ensure (row.status = .draft ∧ evidenceCount ≠ 0)
    (fail "MEASUREMENT_NOT_SUBMITTABLE" "Draft measurement with evidence is required" 409)
  let db ← audit (writeMeasurement db row (.submit actor now)) case "measurement_submitted" actor
    ("submit:" ++ toString measurementId) "Measurement submitted for finance review"
  return (db, row.submit actor now)

def RecoveryValueMeasurement.setStatus (status : MeasurementStatus)
    (row : RecoveryValueMeasurement) : RecoveryValueMeasurement :=
  { row with status }

def financeReview (db : Db) (org measurementId : UUID) (payload : FinanceReviewCreate)
    (actor id : UUID) : Except RecoveryLedgerError (Db × RecoveryValueMeasurement) := do
  let (row, case) ← getMeasurement db org measurementId
  requireSeparateReviewer row actor
  ensure (row.status = .submitted)
    (fail "MEASUREMENT_NOT_SUBMITTED" "Measurement is not awaiting finance review" 409)
  let verification : RecoveryFinanceVerification :=
    { id, organizationId := org, measurementId := row.id
      idempotencyKey := payload.idempotencyKey
      decision := if payload.rejected then .rejected else .needsInformation
      verifiedAmount := 0, currencyCode := row.currencyCode, rationale := payload.rationale
      reviewerUserId := actor }
  let verifications ← orFail
    (insert RecoveryFinanceVerification.Clash verification db.verifications)
    (.integrity "uq_recovery_verification_idempotency")
  let status : MeasurementStatus := if payload.rejected then .rejected else .needsInformation
  let db ← audit (writeMeasurement { db with verifications } row (.setStatus status)) case
    "finance_reviewed" actor ("review:" ++ payload.idempotencyKey) payload.rationale
  return (db, row.setStatus status)

/-! ## The ledger -/

/-- The stored entry that carries an idempotency key. -/
def findEntry (db : Db) (org : UUID) (key : String) : Option VerifiedValueLedgerEntry :=
  db.ledgerEntries.find? fun e => e.organizationId = org ∧ e.idempotencyKey = key

def nextSequence (db : Db) (caseId : UUID) : Nat :=
  ((db.ledgerEntries.filter (·.recoveryCaseId = caseId)).map (·.entrySequence)).foldl max 0 + 1

/-- What an entry is about: its measurement, verification, and the entry it corrects. -/
structure EntryLinks where
  measurementId : Option UUID := none
  verificationId : Option UUID := none
  reversalOf : Option UUID := none
  adjustmentOf : Option UUID := none

/-- `_ledger_entry`: the stored entry with this key, or a new one. -/
def ledgerEntry (db : Db) (case : RecoveryCase) (actor : UUID) (key : String)
    (entryType : LedgerEntryType) (amount : ℚ) (reason : String) (links : EntryLinks) (id : UUID) :
    Except RecoveryLedgerError (Db × VerifiedValueLedgerEntry) :=
  match findEntry db case.organizationId key with
  | some prior => .ok (db, prior)
  | none => do
    let amount ← amountColumn "amount" amount
    ensure (amount ≠ 0) (.integrity "ck_verified_ledger_nonzero")
    let row : VerifiedValueLedgerEntry :=
      { id, organizationId := case.organizationId, recoveryCaseId := case.id
        measurementId := links.measurementId, verificationId := links.verificationId
        reversalOfLedgerEntryId := links.reversalOf
        adjustmentOfLedgerEntryId := links.adjustmentOf
        entrySequence := nextSequence db case.id, entryType, amount
        currencyCode := case.currencyCode, idempotencyKey := key, reason
        postedByUserId := actor }
    let entries ← orFail (insert VerifiedValueLedgerEntry.Clash row db.ledgerEntries)
      (.integrity "verified_value_ledger_entries")
    return ({ db with ledgerEntries := entries }, row)

/-- The verification with this key and the entry that was posted for it. -/
def findVerified (db : Db) (org : UUID) (key : String) : Option VerifiedValueLedgerEntry := do
  let prior ← db.verifications.find? fun v => v.organizationId = org ∧ v.idempotencyKey = key
  db.ledgerEntries.find? fun e => e.verificationId = some prior.id ∧ e.organizationId = org

/-- The part of `verify` behind the replay check. -/
def verifyNew (db : Db) (org : UUID) (row : RecoveryValueMeasurement) (case : RecoveryCase)
    (payload : VerifyCreate) (actor : UUID) (ids : Nat → UUID) :
    Except RecoveryLedgerError (Db × VerifiedValueLedgerEntry) := do
  ensure (row.status = .submitted)
    (fail "MEASUREMENT_NOT_SUBMITTED" "Measurement is not awaiting finance verification" 409)
  ensure (payload.currencyCode = row.currencyCode)
    (fail "CURRENCY_MISMATCH" "Verification currency must match measurement")
  let verifiedAmount ← amountColumn "verified_amount" payload.verifiedAmount
  let verification : RecoveryFinanceVerification :=
    { id := ids 0, organizationId := org, measurementId := row.id
      idempotencyKey := payload.idempotencyKey, decision := .approved, verifiedAmount
      currencyCode := payload.currencyCode, rationale := payload.rationale
      reviewerUserId := actor }
  let verifications ← orFail
    (insert RecoveryFinanceVerification.Clash verification db.verifications)
    (.integrity "uq_recovery_verification_idempotency")
  let (db, ledger) ← ledgerEntry { db with verifications } case actor payload.idempotencyKey
    .verifiedRecovery payload.verifiedAmount payload.rationale
    { measurementId := some row.id, verificationId := some verification.id } (ids 1)
  let db ← audit (writeMeasurement db row (.setStatus .verified)) case "value_verified" actor
    ("verify:" ++ payload.idempotencyKey) payload.rationale
  return (db, ledger)

def verify (db : Db) (org measurementId : UUID) (payload : VerifyCreate) (actor : UUID)
    (ids : Nat → UUID) : Except RecoveryLedgerError (Db × VerifiedValueLedgerEntry) := do
  let (row, case) ← getMeasurement db org measurementId
  requireSeparateReviewer row actor
  match findVerified db org payload.idempotencyKey with
  | some ledger => return (db, ledger)
  | none => verifyNew db org row case payload actor ids

def adjustmentOf (amount : ℚ) : Direction → LedgerEntryType × ℚ
  | .positive => (.adjustmentPositive, amount)
  | .negative => (.adjustmentNegative, context (-amount))

def adjustment (db : Db) (org entryId : UUID) (payload : LedgerMutationCreate) (actor id : UUID) :
    Except RecoveryLedgerError (Db × VerifiedValueLedgerEntry) := do
  let original ← getLedger db org entryId
  let case ← getCase db org original.recoveryCaseId
  let direction ← orFail payload.direction
    (fail "DIRECTION_REQUIRED" "Adjustment direction is required")
  let (entryType, amount) := adjustmentOf payload.amount direction
  let (db, row) ← ledgerEntry db case actor payload.idempotencyKey entryType amount payload.reason
    { measurementId := original.measurementId, adjustmentOf := some original.id } id
  let db ← audit db case "ledger_adjusted" actor ("adjust:" ++ payload.idempotencyKey)
    payload.reason
  return (db, row)

/-- The sum of the organization's entries that reverse `entryId`. -/
def reversalSum (db : Db) (org entryId : UUID) : ℚ :=
  ((db.ledgerEntries.filter fun e =>
    e.organizationId = org ∧ e.reversalOfLedgerEntryId = some entryId).map (·.amount)).sum

def reversalHeadroom (db : Db) (org : UUID) (original : VerifiedValueLedgerEntry) : ℚ :=
  context (context |original.amount| - context |reversalSum db org original.id|)

def reversal (db : Db) (org entryId : UUID) (payload : LedgerMutationCreate) (actor id : UUID) :
    Except RecoveryLedgerError (Db × VerifiedValueLedgerEntry) := do
  let original ← getLedger db org entryId
  ensure (¬ reversalHeadroom db org original < payload.amount)
    (fail "REVERSAL_EXCEEDS_REMAINING" "Reversal exceeds remaining posted value" 409)
  let case ← getCase db org original.recoveryCaseId
  let (db, row) ← ledgerEntry db case actor payload.idempotencyKey .reversal
    (context (-payload.amount)) payload.reason
    { measurementId := original.measurementId, reversalOf := some original.id } id
  let db ← audit db case "ledger_reversed" actor ("reverse:" ++ payload.idempotencyKey)
    payload.reason
  return (db, row)

/-! ## The summary of a case -/

structure CurrencyValue where
  currencyCode : String
  (expectedValue realizedValue verifiedValue netVerifiedValue : ℚ)
  deriving DecidableEq

/-- The measurements joined with their executions of the case. -/
def caseMeasurements (db : Db) (caseId : UUID) : List RecoveryValueMeasurement :=
  db.measurements.flatMap fun m =>
    (db.executions.filter fun x => x.id = m.executionId ∧ x.recoveryCaseId = caseId).map fun _ => m

/-- The approved verifications of the organization joined with the measurements of the case. -/
def caseVerifications (db : Db) (org caseId : UUID) : List RecoveryFinanceVerification :=
  (db.verifications.filter fun v => v.organizationId = org ∧ v.decision = .approved).flatMap fun v =>
    ((caseMeasurements db caseId).filter fun m => m.id = v.measurementId).map fun _ => v

def summary (db : Db) (org caseId : UUID) : Except RecoveryLedgerError CurrencyValue := do
  let case ← getCase db org caseId
  return {
    currencyCode := case.currencyCode
    expectedValue := case.expectedValue
    realizedValue := (((caseMeasurements db caseId).filter (·.organizationId = org)).map
      (·.realizedValue)).sum
    verifiedValue := ((caseVerifications db org caseId).map (·.verifiedAmount)).sum
    netVerifiedValue := ((db.ledgerEntries.filter fun e => e.organizationId = org ∧
      e.recoveryCaseId = caseId ∧ e.currencyCode = case.currencyCode).map (·.amount)).sum }

/-! ## Requests -/

inductive Request
  | createCase (payload : CaseCreate)
  | updateCase (caseId : UUID) (payload : CaseUpdate)
  | createExecution (caseId : UUID) (payload : ExecutionCreate)
  | transitionExecution (executionId : UUID) (transition : ExecutionTransition)
  | createMeasurement (executionId : UUID) (payload : MeasurementCreate)
  | submitMeasurement (measurementId : UUID)
  | financeReview (measurementId : UUID) (payload : FinanceReviewCreate)
  | verify (measurementId : UUID) (payload : VerifyCreate)
  | adjustment (entryId : UUID) (payload : LedgerMutationCreate)
  | reversal (entryId : UUID) (payload : LedgerMutationCreate)
  /-- Other services rewrite the tables they own. -/
  | external (external : External)

/-- A request with its organization and actor, the time it is served and the values drawn. -/
structure Call where
  (organizationId actor : UUID)
  now : Instant
  ids : Nat → UUID
  caseCode : String
  request : Request

inductive Reply
  | case (row : RecoveryCase)
  | execution (row : RecoveryExecution)
  | measurement (row : RecoveryValueMeasurement)
  | entry (row : VerifiedValueLedgerEntry)
  | done
  deriving DecidableEq

/-- Serve one request in a transaction of its own. -/
def serve : Service Db Call Reply RecoveryLedgerError := fun db call =>
  let org := call.organizationId
  match call.request with
  | .createCase payload =>
    (createCase db org payload call.actor (call.ids 0) call.caseCode).map (map id .case)
  | .updateCase caseId payload =>
    (updateCase db org caseId payload call.actor (call.ids 0)).map (map id .case)
  | .createExecution caseId payload =>
    (createExecution db org caseId payload call.actor (call.ids 0)).map (map id .execution)
  | .transitionExecution executionId transition =>
    (transitionExecution db org executionId transition call.actor call.now).map (map id .execution)
  | .createMeasurement executionId payload =>
    (createMeasurement db org executionId payload call.actor (call.ids 0)).map (map id .measurement)
  | .submitMeasurement measurementId =>
    (submitMeasurement db org measurementId call.actor call.now).map (map id .measurement)
  | .financeReview measurementId payload =>
    (financeReview db org measurementId payload call.actor (call.ids 0)).map (map id .measurement)
  | .verify measurementId payload =>
    (verify db org measurementId payload call.actor call.ids).map (map id .entry)
  | .adjustment entryId payload =>
    (adjustment db org entryId payload call.actor (call.ids 0)).map (map id .entry)
  | .reversal entryId payload =>
    (reversal db org entryId payload call.actor (call.ids 0)).map (map id .entry)
  | .external external => .ok ({ db with external }, .done)

/-! ## A sample run -/

namespace Sample

/-- One approved opportunity of organization 1 with its baseline and an approved action. -/
def external : External where
  opportunities := [⟨10, 1, .approvedForAction⟩]
  baselines := [⟨11, 1, 10, "EUR", 500⟩]
  actions := [⟨12, 1, .approved⟩]
  opportunityActions := [⟨1, 10, 12⟩]

/-- A request of organization 1 at time `n`, with the identifiers `2 * n` and `2 * n + 1`. -/
def send (n : Nat) (actor : UUID) (request : Request) : Call :=
  ⟨1, actor, n, fun i => 2 * n + i, "RC-" ++ toString n, request⟩

def measurement (key : String) : MeasurementCreate :=
  { idempotencyKey := key, category := .revenueRecovery, baselineAmount := 100
    actualAmount := 200, currencyCode := "EUR" }

def verification (key : String) : VerifyCreate := ⟨key, 100, "EUR", "checked", by norm_num⟩

def correction (key : String) (direction : Option Direction) : LedgerMutationCreate :=
  ⟨key, 5, "late invoice", direction, by norm_num⟩

/-- User 7 opens case 100, completes execution 102 and submits measurements 108 and 110. -/
def submitted : List Call :=
  [send 50 7 (.createCase ⟨10, 11, "case", "title", "description"⟩),
    send 51 7 (.createExecution 100 ⟨12, "execution"⟩),
    send 52 7 (.transitionExecution 102 .start), send 53 7 (.transitionExecution 102 .complete),
    send 54 7 (.createMeasurement 102 (measurement "first")),
    send 55 7 (.createMeasurement 102 (measurement "second")),
    send 56 7 (.submitMeasurement 108), send 57 7 (.submitMeasurement 110)]

end Sample

end Intel4Ops.RecoveryLedger

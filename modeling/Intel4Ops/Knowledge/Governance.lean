import Intel4Ops.Knowledge.Registry

/-!
# Validation and governance of knowledge versions

The cases of a version, the runs over them, and the moves of a version through its lifecycle, as
`KnowledgeValidationService` and `GovernanceService` make them. The exact digits that a decimal is
printed with are a parameter, so that a case without a tolerance passes as the service decides.
-/

namespace Intel4Ops.Knowledge

open Lib

/-! ## The outcome of a case -/

/-- `_execute` for an operation that the evaluators do not know. -/
def executeUnsupported (outputUnit : String) (input : ValidationInput) :
    Except String ValidationOutput := do
  ensure (input.unit = none ∨ input.unit = some outputUnit) "UNIT_MISMATCH"
  let _ ← (present (input.values.getD [])).mapM fun value => orFail value.decimal? "InvalidOperation"
  let left ← orFail input.left "KeyError"
  let _ ← orFail left.decimal? "InvalidOperation"
  let right ← orFail input.right "KeyError"
  let _ ← orFail right.decimal? "InvalidOperation"
  .error "Unsupported operation"

/-- `KnowledgeValidationService._execute` on the formula of a version. -/
def executeCase (content : Content) (input : ValidationInput) : Except String ValidationOutput :=
  match content.expressionSchema.operation with
  | .supported operation => validate (some content.outputUnit) operation input
  | _ => executeUnsupported content.outputUnit input

/-- The decimal that an output is read back as. -/
def ValidationOutput.decimalValue : ValidationOutput → Special
  | count n => .finite n
  | decimal x => x

/-- `abs(actual - expected) <= tolerance` -/
def within (actual expected tolerance : Special) : Except Signal Bool := do
  let difference ← actual.sub expected
  let distance ← difference.abs
  return !(← tolerance.lt distance)

/-- `KnowledgeValidationService._matches` -/
def outputMatches (env : Env) (actual : ValidationOutput) (expected : Value)
    (tolerance : Option String) : Bool :=
  match tolerance with
  | none => env.sameText actual expected
  | some tolerance =>
    match expected.decimal?, Special.ofText? tolerance with
    | some expected, some tolerance =>
      match within actual.decimalValue expected tolerance with
      | .ok matched => matched
      | .error _ => false
    | _, _ => false

def casePasses (env : Env) (content : Content) (case : ValidationCase) : Bool :=
  match executeCase content case.inputPayload with
  | .error _ => case.expectedStatus = "failed"
  | .ok actual =>
    if case.expectedStatus = "failed" then false
    else outputMatches env actual case.expectedOutput case.tolerance

/-! ## Cases and runs -/

/-- `ValidationCaseCreate` -/
structure ValidationCaseCreate where
  caseCode : String
  inputPayload : ValidationInput
  expectedOutput : Value
  tolerance : Option String
  expectedStatus : String

def ValidationCaseCreate.row (payload : ValidationCaseCreate) (versionId id : UUID) :
    ValidationCase where
  id := id
  definitionVersionId := versionId
  caseCode := payload.caseCode
  inputPayload := payload.inputPayload
  expectedOutput := payload.expectedOutput
  tolerance := payload.tolerance
  expectedStatus := payload.expectedStatus

/-- Two cases with one identifier, or with one code in one version. -/
def ValidationCase.clash (a b : ValidationCase) : Prop :=
  a.id = b.id ∨ a.definitionVersionId = b.definitionVersionId ∧ a.caseCode = b.caseCode

instance (a b : ValidationCase) : Decidable (a.clash b) := inferInstanceAs (Decidable (_ ∨ _))

/-- `KnowledgeValidationService.create_case` -/
def createCase (db : Db) (versionId : UUID) (organizationId : Option UUID)
    (payload : ValidationCaseCreate) (id : UUID) : Except Error Db := do
  let (version, _) ← getVersion db versionId organizationId
  ensure (version.lifecycleStatus ≠ .active)
    (.immutable "Active version validation cases are immutable")
  let cases ← orFail
    (Table.insert ValidationCase.clash (payload.row version.id id) db.cases) .integrity
  return { db with cases }

/-- `KnowledgeValidationService.list_cases` -/
def listCases (db : Db) (versionId : UUID) : List ValidationCase :=
  (db.cases.filter (·.definitionVersionId = versionId)).insertionSort (·.caseCode ≤ ·.caseCode)

def resultOf (env : Env) (version : Version) (case : ValidationCase) : ValidationResult where
  validationCaseId := case.id
  passed := casePasses env version.content case
  definitionFingerprint := version.fingerprint

/-- A version with new columns. -/
def Db.setVersion (db : Db) (versionId : UUID) (write : Version → Version) : Db :=
  { db with versions := Table.update (·.id = versionId) write db.versions }

/-- `KnowledgeValidationService.run` -/
def runValidation (env : Env) (db : Db) (versionId : UUID) (organizationId : Option UUID) :
    Except Error Db := do
  let (version, _) ← getVersion db versionId organizationId
  let cases := listCases db version.id
  ensure (cases ≠ []) (.conflict "At least one validation case is required")
  let results := cases.map (resultOf env version)
  let written := db.setVersion version.id fun v =>
    { v with validationSatisfied := results.all (·.passed) }
  return { written with runs := db.runs ++ [⟨version.id, results⟩] }

/-! ## Moves -/

/-- `GovernanceService.transitions` -/
def LifecycleStatus.transitions : LifecycleStatus → List LifecycleStatus
  | draft => [inReview]
  | inReview => [validated, rejected]
  | validated => [approved, rejected]
  | approved => [active, rejected]
  | active => [deprecated]
  | deprecated => [retired]
  | rejected => []
  | retired => []

/-- `str(status)` -/
def LifecycleStatus.value : LifecycleStatus → String
  | draft => "draft"
  | inReview => "in_review"
  | validated => "validated"
  | approved => "approved"
  | active => "active"
  | deprecated => "deprecated"
  | retired => "retired"
  | rejected => "rejected"

def Db.approved (db : Db) (versionId : UUID) : Prop :=
  ∃ a ∈ db.approvals, a.definitionVersionId = versionId ∧ a.decision = "approved"

instance (db : Db) (versionId : UUID) : Decidable (db.approved versionId) :=
  inferInstanceAs (Decidable (∃ _ ∈ _, _))

/-- What a move asks for when it activates. -/
def checkActivation (db : Db) (version : Version) (target : LifecycleStatus) :
    Except Error Unit := do
  ensure (target = .active → db.approved version.id ∧ version.validationSatisfied)
    (.conflict "Approval and successful validation are required")
  ensure (target = .active →
      ∀ v ∈ db.versionsOf version.definitionId, v.lifecycleStatus = .active → v.id = version.id)
    (.conflict "Only one active version is permitted per scope")

def activationStart (version : Version) (requested : Option Instant) (now : Instant) : Instant :=
  (requested.or version.effectiveFrom).getD now

def Version.moved (version : Version) (target : LifecycleStatus) (requested : Option Instant)
    (now : Instant) : Version :=
  if target = .active then
    { version with
      lifecycleStatus := target
      effectiveFrom := some (activationStart version requested now) }
  else { version with lifecycleStatus := target }

/-- The approvals after a move. -/
def approvalsAfter (db : Db) (version : Version) (target : LifecycleStatus) (actor : UUID) :
    List Approval :=
  if target = .approved then db.approvals ++ [⟨version.id, "knowledge_approver", actor, "approved"⟩]
  else db.approvals

/-- `GovernanceService.transition` -/
def transition (db : Db) (versionId : UUID) (organizationId : Option UUID)
    (target : LifecycleStatus) (requested : Option Instant) (actor : UUID) (now : Instant) :
    Except Error Db := do
  let (version, _) ← getVersion db versionId organizationId
  ensure (target ∈ version.lifecycleStatus.transitions)
    (.conflict ("Invalid lifecycle transition: " ++ version.lifecycleStatus.value ++ " -> " ++
      target.value))
  ensure (target = .validated → version.validationSatisfied)
    (.conflict "Successful validation is required")
  checkActivation db version target
  let moved := version.moved target requested now
  ensure (datesOrdered moved.effectiveFrom moved.effectiveTo) .integrity
  let written := db.setVersion version.id fun _ => moved
  return { written with approvals := approvalsAfter db version target actor }

/-- `GovernanceService.mark_validated` -/
def markValidated (db : Db) (versionId : UUID) (organizationId : Option UUID) (actor : UUID)
    (now : Instant) : Except Error Db := do
  let (version, _) ← getVersion db versionId organizationId
  ensure (version.lifecycleStatus = .inReview)
    (.conflict "Only in-review versions may be validated")
  ensure version.validationSatisfied (.conflict "Successful validation cases are required")
  transition db versionId organizationId .validated none actor now

/-! ## The service -/

/-- The calls that write definitions, versions and their validation. -/
inductive Request
  | create (payload : DefinitionCreate)
  | createVersion (definitionId : UUID) (payload : DefinitionVersionCreate)
  | createCase (versionId : UUID) (payload : ValidationCaseCreate)
  | run (versionId : UUID)
  | markValidated (versionId : UUID)
  | transition (versionId : UUID) (target : LifecycleStatus) (effectiveFrom : Option Instant)

/-- A call: the organization whose definitions it may see, the actor, the clock, and the identifier
that a new row gets. -/
structure Call where
  organizationId : Option UUID
  actor : UUID
  now : Instant
  drawn : UUID
  request : Request

def serve (env : Env) (db : Db) (call : Call) : Except Error Db :=
  match call.request with
  | .create payload => create env db payload call.drawn
  | .createVersion definitionId payload =>
    createVersion env db definitionId call.organizationId payload call.drawn
  | .createCase versionId payload => createCase db versionId call.organizationId payload call.drawn
  | .run versionId => runValidation env db versionId call.organizationId
  | .markValidated versionId => markValidated db versionId call.organizationId call.actor call.now
  | .transition versionId target effectiveFrom =>
    transition db versionId call.organizationId target effectiveFrom call.actor call.now

/-- The calls as a service; what they return is not looked at. -/
def service (env : Env) : Service Db Call Unit Error := fun db call =>
  (serve env db call).map fun db' => (db', ())

end Intel4Ops.Knowledge

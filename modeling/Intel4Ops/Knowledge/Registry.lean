import Intel4Ops.Knowledge.Evaluation
import Intel4Ops.Lib.Ident
import Intel4Ops.Lib.Service
import Intel4Ops.Lib.Table
import Mathlib.Data.Prod.Lex

/-!
# The registry of knowledge definitions

Definitions and their versions, as `DefinitionRegistryService` creates them. A version is stored
with the fingerprint of its content. JSON objects that nothing here looks into are given by their
canonical text. Names, descriptions, domains, sources and the change log are left out, and so are
foreign keys: a request that they refuse changes nothing.
-/

namespace Intel4Ops.Knowledge

open Lib

/-! ## Enumerations -/

/-- `ScopeType` -/
inductive ScopeType
  | sharedCore | industry | regional | organization
  deriving DecidableEq

/-- `LifecycleStatus` -/
inductive LifecycleStatus
  | draft | inReview | validated | approved | active | deprecated | retired | rejected
  deriving DecidableEq

/-- `AnalyticalLevel` -/
inductive AnalyticalLevel
  | arithmetic | ruleBased | statistical | forecasting | predictive | reliability | optimization
  | simulation | recovery
  deriving DecidableEq

/-- `QualityLevel` -/
inductive QualityLevel
  | experimental | provisional | validated | production | referenceGrade
  deriving DecidableEq

/-- `FormulaValidationService.executable_levels` -/
def executableLevels : List AnalyticalLevel := [.arithmetic, .ruleBased]

/-- `FormulaOperation`: the operations of the evaluators, and some that only the schema knows. -/
inductive FormulaOperation
  | supported (operation : Operation)
  | median | subtract | multiply | divide | dateDifference | agingBucket | filter | groupBy
  deriving DecidableEq

/-- The value of an operation that the evaluators do not know. -/
def FormulaOperation.unsupportedValue : FormulaOperation → Option String
  | supported _ => none
  | median => some "median"
  | subtract => some "subtract"
  | multiply => some "multiply"
  | divide => some "divide"
  | dateDifference => some "date_difference"
  | agingBucket => some "aging_bucket"
  | filter => some "filter"
  | groupBy => some "group_by"

/-- The operations that need the units of their inputs to be the unit of their output. -/
def FormulaOperation.keepsUnit : FormulaOperation → Bool
  | supported .sum => true
  | supported .average => true
  | supported .minimum => true
  | supported .maximum => true
  | supported .absoluteVariance => true
  | supported .reconciliation => true
  | _ => false

/-! ## Content of a version -/

/-- `FormulaExpression` -/
structure FormulaExpression where
  operation : FormulaOperation
  (inputs filters grouping : List String)
  parameters : List (String × String)
  deriving DecidableEq

/-- `ParameterCreate`; `details` is the canonical text of the other fields. -/
structure ParameterCreate where
  (parameterCode details : String)
  deriving DecidableEq

/-- `InputRequirementCreate`; `details` is the canonical text of the other fields. -/
structure InputRequirementCreate where
  inputCode : String
  (expectedUnit currencyCode : Option String)
  details : String
  deriving DecidableEq

/-- `EvidenceRequirementCreate`; `details` is the canonical text of the other fields. -/
structure EvidenceRequirementCreate where
  (requirementCode details : String)
  deriving DecidableEq

/-- What a version says and its fingerprint digests, next to its number. -/
structure Content where
  expressionSchema : FormulaExpression
  (outputType outputUnit : String)
  currencyCode : Option String
  (roundingPolicy nullPolicy zeroDenominatorPolicy trustRequirement readinessRequirement : String)
  parameters : List ParameterCreate
  inputRequirements : List InputRequirementCreate
  evidenceRequirements : List EvidenceRequirementCreate
  deriving DecidableEq

/-- `MAJOR.MINOR.PATCH`, ordered as `_version_tuple` orders it. -/
abbrev SemanticVersion := ℕ ×ₗ ℕ ×ₗ ℕ

/-- What the fingerprint of a version digests. -/
structure FingerprintContent where
  semanticVersion : SemanticVersion
  content : Content

/-! ## Rows -/

/-- `scope_key`: the text in front of the first colon, and the text behind it. -/
inductive ScopeKey
  | organization (id : UUID)
  | regional (code : String)
  | industry (code : String)
  | sharedCore
  deriving DecidableEq

/-- `OIKBDefinition` -/
structure Definition where
  id : UUID
  stableCode : String
  analyticalLevel : AnalyticalLevel
  ownerOrganizationId : Option UUID
  (industryPackCode regionCode : Option String)
  scopeType : ScopeType
  scopeKey : ScopeKey
  isSystemDefinition : Bool

/-- The columns of a version that nothing rewrites. -/
structure VersionIdentity where
  (id definitionId : UUID)
  semanticVersion : SemanticVersion
  qualityLevel : QualityLevel
  content : Content
  fingerprint : String

/-- `OIKBDefinitionVersion` -/
structure Version extends VersionIdentity where
  lifecycleStatus : LifecycleStatus
  (effectiveFrom effectiveTo : Option Instant)
  validationSatisfied : Bool

/-- `OIKBValidationCase` -/
structure ValidationCase where
  (id definitionVersionId : UUID)
  caseCode : String
  inputPayload : ValidationInput
  expectedOutput : Value
  tolerance : Option String
  expectedStatus : String

/-- `OIKBValidationResult` -/
structure ValidationResult where
  validationCaseId : UUID
  passed : Bool
  definitionFingerprint : String

/-- The results that one validation run adds. -/
structure ValidationRun where
  definitionVersionId : UUID
  results : List ValidationResult

/-- `OIKBApproval` -/
structure Approval where
  definitionVersionId : UUID
  approvalRole : String
  approverId : UUID
  decision : String

/-- The tables, with the rows in the order in which they were added. -/
structure Db where
  definitions : List Definition
  versions : List Version
  cases : List ValidationCase
  runs : List ValidationRun
  approvals : List Approval

def Db.empty : Db := ⟨[], [], [], [], []⟩

/-- `OIKBError` and its subclasses, and what the schema and the database refuse. -/
inductive Error
  | oikb (message : String)
  | notFound (message : String)
  | conflict (message : String)
  | unsupported (message : String)
  | immutable (message : String)
  | schema (message : String)
  | integrity

/-- What the services take from their libraries: upper case, the digest of canonical JSON, and
whether a decimal is printed as an expected output is. -/
structure Env where
  upper : String → String
  digest : FingerprintContent → String
  sameText : ValidationOutput → Value → Bool

/-! ## Payloads -/

/-- `DefinitionCreate` -/
structure DefinitionCreate where
  stableCode : String
  analyticalLevel : AnalyticalLevel
  ownerOrganizationId : Option UUID
  (industryPackCode regionCode : Option String)
  scopeType : ScopeType
  isSystemDefinition : Bool

/-- `DefinitionVersionCreate` -/
structure DefinitionVersionCreate where
  semanticVersion : SemanticVersion
  qualityLevel : QualityLevel
  (effectiveFrom effectiveTo : Option Instant)
  content : Content

/-- A text that is neither missing nor empty. -/
def truthy (code : Option String) : Bool := code.any (· ≠ "")

/-- `DefinitionCreate.validate_scope` -/
def DefinitionCreate.validateScope (payload : DefinitionCreate) : Except Error Unit := do
  ensure (payload.scopeType = .organization → payload.ownerOrganizationId.isSome)
    (.schema "Organization scope requires owner_organization_id")
  ensure (payload.scopeType ≠ .organization → payload.ownerOrganizationId = none)
    (.schema "Only organization scope may set owner_organization_id")
  ensure (payload.scopeType = .industry → truthy payload.industryPackCode)
    (.schema "Industry scope requires industry_pack_code")
  ensure (payload.scopeType = .regional → truthy payload.regionCode)
    (.schema "Regional scope requires region_code")
  ensure (payload.isSystemDefinition → payload.scopeType ≠ .organization)
    (.schema "System definitions cannot be organization scoped")

/-- Both dates are missing, or the end is later than the start. -/
def datesOrdered (effectiveFrom effectiveTo : Option Instant) : Prop :=
  ∀ start ∈ effectiveFrom, ∀ stop ∈ effectiveTo, start < stop

instance (effectiveFrom effectiveTo : Option Instant) :
    Decidable (datesOrdered effectiveFrom effectiveTo) :=
  match effectiveFrom, effectiveTo with
  | none, _ => isTrue fun _ h => absurd h (Option.not_mem_none _)
  | some _, none => isTrue fun _ _ _ h => absurd h (Option.not_mem_none _)
  | some start, some stop =>
    decidable_of_iff (start < stop)
      ⟨fun h _ hstart _ hstop => Option.some.inj hstart ▸ Option.some.inj hstop ▸ h,
        fun h => h start rfl stop rfl⟩

/-- `DefinitionVersionCreate.validate_dates` -/
def DefinitionVersionCreate.validateDates (payload : DefinitionVersionCreate) : Except Error Unit :=
  ensure (datesOrdered payload.effectiveFrom payload.effectiveTo)
    (.schema "effective_to must be later than effective_from")

/-! ## Definitions -/

/-- `DefinitionRegistryService._scope_key` -/
def scopeKey (env : Env) (payload : DefinitionCreate) : ScopeKey :=
  match payload.ownerOrganizationId, payload.regionCode, payload.industryPackCode with
  | some id, _, _ => .organization id
  | none, some code, _ => .regional (env.upper code)
  | none, none, some code => .industry (env.upper code)
  | none, none, none => .sharedCore

def DefinitionCreate.row (env : Env) (payload : DefinitionCreate) (id : UUID) : Definition where
  id := id
  stableCode := payload.stableCode
  analyticalLevel := payload.analyticalLevel
  ownerOrganizationId := payload.ownerOrganizationId
  industryPackCode := payload.industryPackCode
  regionCode := payload.regionCode
  scopeType := payload.scopeType
  scopeKey := scopeKey env payload
  isSystemDefinition := payload.isSystemDefinition

/-- `DefinitionRegistryService.create` -/
def create (env : Env) (db : Db) (payload : DefinitionCreate) (id : UUID) : Except Error Db := do
  payload.validateScope
  ensure (∀ d ∈ db.definitions,
      ¬ (d.stableCode = payload.stableCode ∧ d.scopeKey = scopeKey env payload))
    (.conflict "Stable code already exists in this specialization scope")
  let definitions ← orFail
    (Table.insert (fun a b => a.id = b.id) (payload.row env id) db.definitions) .integrity
  return { db with definitions }

/-- An organization sees the definitions without an owner and its own. -/
def Definition.visibleTo (d : Definition) (organizationId : Option UUID) : Prop :=
  d.ownerOrganizationId = none ∨ d.ownerOrganizationId = organizationId

instance (d : Definition) (organizationId : Option UUID) : Decidable (d.visibleTo organizationId) :=
  inferInstanceAs (Decidable (_ ∨ _))

/-- `DefinitionRegistryService.get` -/
def get (db : Db) (definitionId : UUID) (organizationId : Option UUID) : Except Error Definition :=
  orFail (db.definitions.find? fun d => d.id = definitionId ∧ d.visibleTo organizationId)
    (.notFound "Definition not found")

/-! ## Versions -/

/-- The units that inputs expect. -/
def Content.units (content : Content) : List String :=
  content.inputRequirements.filterMap (·.expectedUnit)

/-- The currencies of inputs. -/
def Content.currencies (content : Content) : List String :=
  content.inputRequirements.filterMap (·.currencyCode)

/-- The names of a list that are not declared, sorted and without repetition. -/
def undeclared (names declared : List String) : List String :=
  (firsts (names.filter (· ∉ declared))).insertionSort (· ≤ ·)

/-- `FormulaValidationService.validate` -/
def validateFormula (env : Env) (definition : Definition) (payload : DefinitionVersionCreate) :
    Except Error String := do
  let content := payload.content
  let expression := content.expressionSchema
  let operation := expression.operation
  ensure (definition.analyticalLevel ∈ executableLevels → operation.unsupportedValue = none)
    (.unsupported ("Operation '" ++ operation.unsupportedValue.getD "" ++
      "' is not supported by the WP-2.07 execution boundary"))
  let unknownInputs := undeclared expression.inputs (content.inputRequirements.map (·.inputCode))
  ensure (unknownInputs = [])
    (.oikb ("Expression references undeclared inputs: " ++ ", ".intercalate unknownInputs))
  let unknownParameters :=
    undeclared (expression.parameters.map (·.1)) (content.parameters.map (·.parameterCode))
  ensure (unknownParameters = [])
    (.oikb ("Expression references undeclared parameters: " ++ ", ".intercalate unknownParameters))
  ensure (operation.keepsUnit → ∀ unit ∈ content.units, unit = content.outputUnit)
    (.oikb "Input and output units are incompatible")
  ensure ((firsts content.currencies).length ≤ 1)
    (.oikb "Cross-currency aggregation requires a governed conversion rule")
  ensure (content.currencies ≠ [] → ∃ currency ∈ content.currencies,
      content.currencyCode = some currency)
    (.oikb "Input and output currency codes must match")
  ensure (content.currencyCode ≠ none → content.outputType = "currency")
    (.oikb "currency_code requires output_type='currency'")
  return env.digest ⟨payload.semanticVersion, content⟩

def Db.versionsOf (db : Db) (definitionId : UUID) : List Version :=
  db.versions.filter (·.definitionId = definitionId)

/-- The unique constraints on the codes of parameters and requirements. -/
def Content.codesUnique (content : Content) : Prop :=
  (content.parameters.map (·.parameterCode)).Nodup ∧
    (content.inputRequirements.map (·.inputCode)).Nodup ∧
    (content.evidenceRequirements.map (·.requirementCode)).Nodup

instance (content : Content) : Decidable content.codesUnique := inferInstanceAs (Decidable (_ ∧ _))

def DefinitionVersionCreate.row (payload : DefinitionVersionCreate) (definitionId : UUID)
    (fingerprint : String) (id : UUID) : Version where
  id := id
  definitionId := definitionId
  semanticVersion := payload.semanticVersion
  lifecycleStatus := .draft
  qualityLevel := payload.qualityLevel
  effectiveFrom := payload.effectiveFrom
  effectiveTo := payload.effectiveTo
  content := payload.content
  fingerprint := fingerprint
  validationSatisfied := false

/-- `DefinitionRegistryService.create_version` -/
def createVersion (env : Env) (db : Db) (definitionId : UUID) (organizationId : Option UUID)
    (payload : DefinitionVersionCreate) (id : UUID) : Except Error Db := do
  payload.validateDates
  let definition ← get db definitionId organizationId
  let existing := db.versionsOf definition.id
  ensure (∀ v ∈ existing, v.semanticVersion ≠ payload.semanticVersion)
    (.conflict "Semantic version already exists")
  ensure (∀ v ∈ existing, v.semanticVersion < payload.semanticVersion)
    (.oikb "New semantic version must be greater than all existing versions")
  let fingerprint ← validateFormula env definition payload
  ensure (∀ v ∈ existing, v.fingerprint ≠ fingerprint)
    (.conflict "Duplicate definition version content")
  ensure payload.content.codesUnique (.conflict "Definition version conflicts with existing data")
  let versions ← orFail (Table.insert (fun a b => a.id = b.id)
    (payload.row definition.id fingerprint id) db.versions) .integrity
  return { db with versions }

/-- `DefinitionRegistryService.get_version`, with the definition of the version. -/
def getVersion (db : Db) (versionId : UUID) (organizationId : Option UUID) :
    Except Error (Version × Definition) := do
  let version ← orFail (db.versions.find? (·.id = versionId))
    (.notFound "Definition version not found")
  let definition ← orFail
    (db.definitions.find? fun d => d.id = version.definitionId ∧ d.visibleTo organizationId)
    (.notFound "Definition version not found")
  return (version, definition)

end Intel4Ops.Knowledge

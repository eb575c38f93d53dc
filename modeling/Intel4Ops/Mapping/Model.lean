import Intel4Ops.Lib.Except
import Intel4Ops.Lib.Ident
import Intel4Ops.Lib.Json
import Intel4Ops.Lib.Service
import Intel4Ops.Lib.Table
import Mathlib.Data.List.Sort

/-!
# Canonical mapping

The rows of `models/canonical_mapping.py` that `services/canonical_mapping_service.py` reads and
writes. Identifiers are drawn from a supply in the tables. A template version is kept with its field
mappings in sequence order, and a field mapping with its transformations. What the standard library
makes of texts, decimals, datetimes and patterns is a parameter, `Env`.
-/

namespace Intel4Ops.Mapping

open Lib

/-! ## Enumerations -/

inductive CanonicalTypeKind
  | entity | event | metric
  deriving DecidableEq

inductive TransformationType
  | typeCast | dateParse | timezoneNormalize | unitConvert | currencyNormalize | crosswalkLookup
  | derive | constant | trimNormalize | customFunction
  deriving DecidableEq

inductive CrosswalkEntryStatus
  | draft | approved | deprecated | retired
  deriving DecidableEq

inductive EntityMatchMethod
  | exactIdentifier | normalizedIdentifier | deterministicComposite | fuzzyCandidate
  deriving DecidableEq

inductive SchemaStatus
  | active | deprecated | changed | incompatible
  deriving DecidableEq

inductive MappingRunStatus
  | created | queued | running | completed | partiallyCompleted | failed | cancelled
  deriving DecidableEq

inductive MappingRecordStatus
  | mapped | humanConfirmed | unresolved | ambiguous | conflicting | missingRequiredField
  | rejected | superseded
  deriving DecidableEq

inductive MappingExceptionType
  | unresolvedField | ambiguousEntity | conflictingMapping | missingRequiredField
  | transformationFailure | crosswalkMiss | validationFailure
  deriving DecidableEq

inductive MappingExceptionStatus
  | open | underReview | resolved | wontFix
  deriving DecidableEq

/-- An exception that no review decides again. -/
def MappingExceptionStatus.isFinal : MappingExceptionStatus → Bool
  | .open | .underReview => false
  | .resolved | .wontFix => true

inductive MappingReviewDecision
  | confirm | override | reject | defer

inductive MatchCandidateStatus
  | candidate | accepted | rejected | superseded
  deriving DecidableEq

/-! ## Values and failures -/

/-- A value of a record: JSON as it came in, or a `Decimal` or a `datetime` that a transformation
made of it, by its text. -/
inductive Value
  | json (j : Json)
  | decimal (text : String)
  | datetime (text : String)

namespace Value

/-- The value is `None`. -/
def isNone : Value → Bool
  | json .null => true
  | json (.bool _) | json (.num _) | json (.str _) | json (.arr _) | json (.obj _) => false
  | decimal _ | datetime _ => false

/-- The JSON columns take the value. -/
def isJson : Value → Bool
  | json _ => true
  | decimal _ | datetime _ => false

end Value

/-- A dictionary of record values by their field codes. -/
abbrev Output := List (String × Value)

namespace Output

/-- `output.get(key)`, with a missing key as `None`. -/
def get (output : Output) (key : String) : Value :=
  ((output.find? (·.1 = key)).map (·.2)).getD (.json .null)

/-- `output[key] = value`. -/
def assign (output : Output) (key : String) (value : Value) : Output :=
  if output.any (·.1 = key) then Table.update (·.1 = key) (fun _ => (key, value)) output
  else output ++ [(key, value)]

/-- The JSON columns take the dictionary. -/
def isJson (output : Output) : Bool := output.all (·.2.isJson)

end Output

/-- The exceptions that the code distinguishes, or that escape it. -/
inductive Raised
  | fieldValidation
  | valueError
  | typeError
  | keyError
  | arithmetic
  | index
  | attribute
  | pattern
  | unboundLocal
  | assertion
  | notSerializable
  | dataError
  | integrity
  | service (code : String)

/-- The failures of a block. -/
abbrev Raises (α : Type) := Except Raised α

/-- What the standard library and SHA-256 make of their arguments. Scores are exact; other decimals
and all datetimes are named by their texts. -/
structure Env where
  str : Value → String
  strip : String → String
  split : String → List String
  (casefold upper : String → String)
  isAlpha : String → Bool
  /-- `int(value)` -/
  castInteger : Value → Raises Value
  /-- `Decimal(value)` -/
  castDecimal : Value → Raises Value
  /-- `int(text)` -/
  integer : String → Raises ℤ
  /-- `Decimal(text)` -/
  decimal : String → Raises String
  multiply : String → String → Raises String
  /-- `Decimal(a) < Decimal(b)` -/
  below : String → String → Raises Bool
  /-- `score >= Decimal(text)` -/
  atLeast : ℚ → String → Raises Bool
  fromisoformat : String → Raises String
  /-- A parsed value in a source timezone, as UTC. -/
  normalizeTimezone : Value → String → Raises String
  /-- `template.format(**context)` -/
  format : String → Output → Raises String
  fullmatch : String → String → Raises Bool
  uuid : String → Raises UUID
  /-- `value == allowed` -/
  equal : Value → Json → Bool
  /-- The quantized ratio of a `SequenceMatcher`. -/
  ratio : String → String → ℚ
  stableJson : Output → String
  digest : CanonicalTypeKind → UUID → String → String
  /-- The second instant is not before the first. -/
  notBefore : String → String → Bool
  /-- The numeric column takes the decimal. -/
  numericFits : String → Bool
  now : Instant

/-- The standard library on words: letters without blanks, which are no numbers, instants, dates or
identifiers. Two of them are all but equal. -/
def Env.words : Env where
  str
    | .json .null => "None"
    | .json (.bool b) => if b then "True" else "False"
    | .json (.str s) | .decimal s | .datetime s => s
    | .json (.num _) | .json (.arr _) | .json (.obj _) => ""
  strip s := s
  split s := [s]
  casefold s := s
  upper s := s
  isAlpha _ := true
  castInteger _ := .error .valueError
  castDecimal _ := .error .arithmetic
  integer _ := .error .valueError
  decimal _ := .error .arithmetic
  multiply a _ := .ok a
  below _ _ := .error .arithmetic
  atLeast score _ := .ok (3 / 4 ≤ score)
  fromisoformat _ := .error .valueError
  normalizeTimezone _ _ := .error .valueError
  format template _ := .ok template
  fullmatch pattern text := .ok (pattern = text)
  uuid _ := .error .valueError
  equal
    | .json (.str a), .str b => a = b
    | _, _ => false
  ratio a b := if a = b then 1 else if a = "acme" ∧ b = "acmes" then 8889 / 10000 else 0
  stableJson output := ",".intercalate (output.map fun field => field.1 ++ ":" ++
    match field.2 with
    | .json (.str s) => s
    | _ => "null")
  digest _ _ text := text
  notBefore _ _ := true
  numericFits _ := true
  now := 0

/-! ## Rows -/

structure MappingTransformation where
  transformationType : TransformationType
  parameters : List (String × Json)

structure CanonicalFieldDefinition where
  fieldCode : String
  allowedValues : Option (List Json)
  validationRule : List (String × Json)

structure FieldMapping where
  sourceFieldPath : String
  field : CanonicalFieldDefinition
  isRequiredForPublication : Bool
  defaultValue : Json
  transformations : List MappingTransformation

/-- A template version with the scope and the target of its template. -/
structure MappingTemplateVersion where
  id : UUID
  ownerOrganizationId : Option UUID
  organizationScoped : Bool
  targetKind : CanonicalTypeKind
  targetTypeId : UUID
  published : Bool
  fieldMappings : List FieldMapping

structure ValueCrosswalkEntry where
  crosswalkId : UUID
  ownerOrganizationId : Option UUID
  (normalizedSourceValue canonicalTargetValue : String)
  status : CrosswalkEntryStatus
  (effectiveFrom effectiveTo : Option Instant)
  mappingConfidenceScore : Option ℚ

structure EntityMatchRule where
  (id entityTypeId : UUID)
  ruleCode : String
  matchMethod : EntityMatchMethod
  matchFields : List String
  normalization : List (String × Json)

structure RawRecordReference where
  (id organizationId datasetVersionId : UUID)
  deriving DecidableEq

structure CanonicalEntity where
  (id organizationId entityTypeId : UUID)
  canonicalEntityKey : Option String
  attributes : Output
  survivorshipSourceLinkId : Option UUID
  contentFingerprint : String

/-- An event or a metric, which are stored under the same rules. -/
structure CanonicalOccurrence where
  (id organizationId canonicalEntityId typeId : UUID)
  occurrenceStart : String
  occurrenceEnd : Option String
  occurrencePrecision : String
  /-- The measured value, unit and currency of a metric. -/
  measurement : Option (String × String × Option String)
  actorReference : Option String
  attributes : Output
  contentFingerprint : String

structure DatasetVersion where
  (id organizationId : UUID)

structure SourceSchema where
  (id organizationId datasetVersionId : UUID)
  status : SchemaStatus

structure MappingRun where
  (id organizationId datasetVersionId templateVersionId : UUID)
  status : MappingRunStatus
  (idempotencyKey requestFingerprint : String)
  inputCount : ℕ
  mappedCount : ℕ := 0
  exceptionCount : ℕ := 0
  rejectedCount : ℕ := 0
  failureCode : Option String := none
  failureRetryable : Option Bool := none
  retryOfRunId : Option UUID := none
  rootRunId : Option UUID := none
  attemptNumber : ℕ := 1
  heartbeatAt : Option Instant := none
  executionLeaseId : Option UUID := none
  executionWorkerId : Option String := none
  createdAt : Instant

structure MappingInputRecord where
  rawRecordReferenceId : UUID
  values : List (String × Json)

structure MappingRunInput where
  (organizationId mappingRunId : UUID)
  recordSequence : ℕ
  record : MappingInputRecord

structure MappingRecordResult where
  (id organizationId mappingRunId rawRecordReferenceId : UUID)
  status : MappingRecordStatus
  canonicalTargetKind : CanonicalTypeKind
  canonicalTargetId : Option UUID
  mappingConfidenceScore : Option ℚ
  confidenceMethodCode : Option String
  resultJson : Output

structure SourceCanonicalLink where
  (id organizationId rawRecordReferenceId : UUID)
  canonicalTargetKind : CanonicalTypeKind
  (canonicalTargetId mappingRunId : UUID)
  isPrimary : Bool
  mappingConfidenceScore : ℚ
  confidenceMethodCode : String

structure EntityMatchCandidate where
  (id organizationId sourceCanonicalLinkId candidateEntityId matchRuleId : UUID)
  matchScore : ℚ
  status : MatchCandidateStatus
  decidedByUserId : Option UUID

structure MappingException where
  (id organizationId mappingRecordResultId : UUID)
  exceptionType : MappingExceptionType
  status : MappingExceptionStatus
  /-- The field codes that the detail names. -/
  fields : List String
  resolutionSummary : Option String

structure MappingReview where
  (id organizationId mappingExceptionId : UUID)
  decision : MappingReviewDecision
  reviewerUserId : UUID

structure Db where
  /-- The supply of identifiers: every identifier of these tables is below it. -/
  nextId : ℕ
  versions : List MappingTemplateVersion
  crosswalkEntries : List ValueCrosswalkEntry
  matchRules : List EntityMatchRule
  datasetVersions : List DatasetVersion
  sourceSchemas : List SourceSchema
  rawRecords : List RawRecordReference
  entities : List CanonicalEntity
  (events metrics : List CanonicalOccurrence)
  runs : List MappingRun
  inputs : List MappingRunInput
  results : List MappingRecordResult
  links : List SourceCanonicalLink
  candidates : List EntityMatchCandidate
  exceptions : List MappingException
  reviews : List MappingReview

end Intel4Ops.Mapping

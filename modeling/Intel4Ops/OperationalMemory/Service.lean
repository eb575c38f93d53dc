import Intel4Ops.Lib.Service
import Intel4Ops.Lib.Table
import Intel4Ops.OperationalMemory.Content

/-!
# The operational memory service

Memory items, their versions, and the two operations that append to them: a candidate that the
mapping pipeline records, and a decision of a human. Calls are served one after the other, so the
retry after a lost race is not taken. The tables that provenance refers to are written elsewhere:
every call finds them as they are at its time. Actors, content hashes and the columns that follow
from others are left out.
-/

namespace Intel4Ops.OperationalMemory

open Lib

/-! ## Requests -/

/-- `MemoryProvenance` -/
structure MemoryProvenance where
  (sourceSchemaId mappingRecordResultId mappingReviewId mappingTemplateVersionId : Option UUID)
  canonicalFieldDefinitionIds : List UUID
  sourceContentHashes : List String
  deriving DecidableEq

/-- `model_dump(mode="json")` of a provenance. -/
def MemoryProvenance.document (p : MemoryProvenance) : Document :=
  .dict [("source_schema_id", p.sourceSchemaId.elim .null .uuid),
    ("mapping_record_result_id", p.mappingRecordResultId.elim .null .uuid),
    ("mapping_review_id", p.mappingReviewId.elim .null .uuid),
    ("mapping_template_version_id", p.mappingTemplateVersionId.elim .null .uuid),
    ("canonical_field_definition_ids", .list (p.canonicalFieldDefinitionIds.map .uuid)),
    ("source_content_hashes", .list (p.sourceContentHashes.map .text)),
    ("raw_data_included", .bool false)]

/-- `security_classification` -/
inductive SecurityClassification
  | tenantInternal | tenantSensitive
  deriving DecidableEq

/-- `MemoryCandidateCreate` -/
structure MemoryCandidateCreate where
  idempotencyKey : String
  category : Category
  subjectKind : SubjectKind
  subject : String
  (sourceSystemFamily canonicalDomain : Option String)
  context : MemoryContext
  valuePayload : String
  provenance : MemoryProvenance
  sourceFingerprint : String
  securityClassification : SecurityClassification
  validTo : Option Instant
  deriving DecidableEq

/-- The actions of a decision. -/
inductive Action
  | confirm | correct | reject | deprecate
  deriving DecidableEq

/-- `MemoryDecisionRequest` -/
structure MemoryDecisionRequest where
  idempotencyKey : String
  expectedCurrentVersion : ℕ
  action : Action
  (correctedPayload decisionReasonCode correlationId : Option String)
  deriving DecidableEq

/-- What `request_fingerprint` digests. -/
inductive RequestFingerprint
  | recordCandidate (organizationId : UUID) (payload : MemoryCandidateCreate)
  | decision (organizationId memoryId : UUID) (payload : MemoryDecisionRequest)
  deriving DecidableEq

/-! ## Rows -/

/-- `MemoryStatus` -/
inductive Status
  | observed | confirmed | corrected | ambiguous | rejected | deprecated
  deriving DecidableEq

/-- `STALE_REASONS` -/
inductive StaleReason
  | schemaChanged | sourceSystemChanged | mappingVersionRetired | canonicalDefinitionIncompatible
  | validityExpired | contradictoryEvidence
  deriving DecidableEq

/-- `confidence_label` -/
inductive ConfidenceLabel
  | unassessed | humanConfirmed
  deriving DecidableEq

/-- `provenance_snapshot`: the provenance of a candidate and the keys that the service adds. -/
structure ProvenanceSnapshot where
  provenance : MemoryProvenance
  conflictingVersionIds : Option (List UUID)
  decisionCorrelationId : Option (Option String)

/-- `OperationalMemoryItem` -/
structure Item where
  (id organizationId : UUID)
  category : Category
  subjectKind : SubjectKind
  normalizedSubject : String
  (sourceSystemFamily canonicalDomain : Option String)
  contextSignature : ContextSignature
  memoryFingerprint : MemoryFingerprint
  currentVersionNumber : ℕ
  currentStatus : Status
  (supportCount contradictionCount confirmationCount rejectionCount : ℕ)
  isStale : Bool
  staleReasonCode : Option StaleReason
  (staleDetectedAt lastConfirmedAt lastValidatedAt : Option Instant)
  validFrom : Instant
  validTo : Option Instant
  securityClassification : SecurityClassification
  retentionUntil : Option Instant
  deriving DecidableEq

/-- `OperationalMemoryVersion` -/
structure Version where
  (id organizationId memoryId : UUID)
  versionNumber : ℕ
  supersedesVersionId : Option UUID
  status : Status
  valuePayload : ValuePayload
  provenanceSnapshot : ProvenanceSnapshot
  sourceFingerprint : String
  confidenceLabel : ConfidenceLabel
  decisionReasonCode : Option String
  idempotencyKey : String
  requestFingerprint : RequestFingerprint

/-- The tables of operational memory. -/
structure Db where
  items : List Item
  versions : List Version

/-- `uq_operational_memory_items_org_fingerprint` and the primary key. -/
def Item.clash (a b : Item) : Prop :=
  a.id = b.id ∨ a.organizationId = b.organizationId ∧ a.category = b.category ∧
    a.memoryFingerprint = b.memoryFingerprint

instance (a b : Item) : Decidable (a.clash b) := inferInstanceAs (Decidable (_ ∨ _))

/-- `uq_operational_memory_versions_org_memory_version`,
`uq_operational_memory_versions_org_idempotency` and the primary key. -/
def Version.clash (a b : Version) : Prop :=
  a.id = b.id ∨
    a.organizationId = b.organizationId ∧ a.memoryId = b.memoryId ∧
      a.versionNumber = b.versionNumber ∨
    a.organizationId = b.organizationId ∧ a.idempotencyKey = b.idempotencyKey

instance (a b : Version) : Decidable (a.clash b) := inferInstanceAs (Decidable (_ ∨ _ ∨ _))

/-! ## The tables that provenance refers to -/

/-- A row of one organization. -/
structure TenantRow where
  (id organizationId : UUID)

/-- A row that belongs to an organization, or to all of them. -/
structure ScopedRow where
  id : UUID
  organizationScoped : Bool
  ownerOrganizationId : Option UUID

/-- `Organization` -/
structure Organization where
  id : UUID
  active : Bool
  industry : Option String

/-- `MappingTemplateVersion` -/
structure MappingTemplateVersion where
  (id templateId : UUID)

/-- `CanonicalFieldDefinition` -/
structure CanonicalFieldDefinition where
  id : UUID
  canonicalTypeKind : CanonicalTypeKind
  canonicalTypeId : UUID

/-- The rows that the service reads and does not write. -/
structure Catalog where
  organizations : List Organization
  (sourceSchemas mappingRecordResults mappingReviews : List TenantRow)
  mappingTemplates : List ScopedRow
  mappingTemplateVersions : List MappingTemplateVersion
  canonicalFieldDefinitions : List CanonicalFieldDefinition
  canonicalTypes : CanonicalTypeKind → List ScopedRow

def ScopedRow.VisibleTo (row : ScopedRow) (organizationId : UUID) : Prop :=
  ¬ (row.organizationScoped = true ∧ row.ownerOrganizationId ≠ some organizationId)

instance (row : ScopedRow) (organizationId : UUID) : Decidable (row.VisibleTo organizationId) :=
  inferInstanceAs (Decidable (¬ _))

/-- `_organization` -/
def Catalog.organization (catalog : Catalog) (organizationId : UUID) : Except Error Organization :=
  orFail (catalog.organizations.find? fun o => o.id = organizationId ∧ o.active = true)
    (.service "ORGANIZATION_NOT_FOUND" "Organization is unavailable" 404)

/-- `PROVENANCE_NOT_FOUND` -/
def provenanceNotFound (message : String) : Error := .service "PROVENANCE_NOT_FOUND" message 404

def checkTenantRow (rows : List TenantRow) (organizationId : UUID) (message : String) :
    Option UUID → Except Error Unit
  | none => .ok ()
  | some id =>
    ensure (∃ row ∈ rows, row.id = id ∧ row.organizationId = organizationId)
      (provenanceNotFound message)

/-- A reference to a version of a mapping template, where there is one. -/
def Catalog.checkTemplateVersion (catalog : Catalog) (organizationId : UUID) :
    Option UUID → Except Error Unit
  | none => .ok ()
  | some id => do
    let version ← orFail (catalog.mappingTemplateVersions.find? (·.id = id))
      (provenanceNotFound "Mapping version was not found")
    let template ← orFail (catalog.mappingTemplates.find? (·.id = version.templateId))
      (provenanceNotFound "Mapping version was not found")
    ensure (template.VisibleTo organizationId)
      (provenanceNotFound "Mapping version is outside tenant scope")

/-- `_validate_canonical_field` -/
def Catalog.validateCanonicalField (catalog : Catalog) (organizationId canonicalId : UUID) :
    Except Error Unit := do
  let field ← orFail (catalog.canonicalFieldDefinitions.find? (·.id = canonicalId))
    (.service "CANONICAL_FIELD_NOT_FOUND" "Canonical field was not found" 404)
  let owner ← orFail
    ((catalog.canonicalTypes field.canonicalTypeKind).find? (·.id = field.canonicalTypeId))
    (.service "CANONICAL_FIELD_NOT_FOUND" "Canonical field is outside tenant scope" 404)
  ensure (owner.VisibleTo organizationId)
    (.service "CANONICAL_FIELD_NOT_FOUND" "Canonical field is outside tenant scope" 404)

/-- `_validate_provenance` -/
def Catalog.validateProvenance (catalog : Catalog) (organizationId : UUID)
    (provenance : MemoryProvenance) (value : ValuePayload) : Except Error Unit := do
  ensure (provenance.sourceSchemaId ≠ none ∨ provenance.mappingRecordResultId ≠ none)
    (.fail "PROVENANCE_REQUIRED" "Governed mapping provenance is required")
  checkTenantRow catalog.sourceSchemas organizationId "Source schema is outside tenant scope"
    provenance.sourceSchemaId
  checkTenantRow catalog.mappingRecordResults organizationId
    "Mapping result is outside tenant scope" provenance.mappingRecordResultId
  checkTenantRow catalog.mappingReviews organizationId "Mapping review is outside tenant scope"
    provenance.mappingReviewId
  catalog.checkTemplateVersion organizationId provenance.mappingTemplateVersionId
  (provenance.canonicalFieldDefinitionIds ++ value.canonicalFieldDefinitionId.toList).forM
    (catalog.validateCanonicalField organizationId)

/-! ## Lookups -/

/-- `_item` -/
def Db.item (db : Db) (organizationId memoryId : UUID) : Except Error Item :=
  orFail (db.items.find? fun i => i.organizationId = organizationId ∧ i.id = memoryId)
    (.service "MEMORY_NOT_FOUND" "Operational memory not found" 404)

/-- `MEMORY_PROJECTION_INVALID` -/
def projectionInvalid : Error :=
  .service "MEMORY_PROJECTION_INVALID" "Operational memory projection is inconsistent" 409

/-- `_current_version` -/
def Db.currentVersion (db : Db) (item : Item) : Except Error Version := do
  let version ← orFail (db.versions.find? fun v => v.organizationId = item.organizationId ∧
    v.memoryId = item.id ∧ v.versionNumber = item.currentVersionNumber) projectionInvalid
  ensure (version.status = item.currentStatus) projectionInvalid
  return version

/-- `_idempotent_version` -/
def Db.idempotentVersion (db : Db) (organizationId : UUID) (key : String)
    (fingerprint : RequestFingerprint) : Except Error (Option Version) :=
  match db.versions.find? fun v => v.organizationId = organizationId ∧ v.idempotencyKey = key with
  | none => .ok none
  | some existing => do
    ensure (existing.requestFingerprint = fingerprint)
      (.service "IDEMPOTENCY_CONFLICT" "Idempotency key was reused" 409)
    return some existing

/-! ## Writes -/

/-- A number of days in microseconds. -/
def days (n : ℤ) : ℤ := n * 86400000000

/-- `_clear_stale` -/
def Item.clearStale (item : Item) : Item :=
  { item with isStale := false, staleReasonCode := none, staleDetectedAt := none }

/-- The number and the dates that every new version writes. -/
def Item.advanced (item : Item) (now : Instant) : Item :=
  { item with
    currentVersionNumber := item.currentVersionNumber + 1
    lastValidatedAt := some now }

/-- The status of an item whose current value was observed again. -/
def Status.repeated : Status → Status
  | rejected => observed
  | deprecated => observed
  | status => status

/-- An item whose current value was observed again. -/
def Item.supported (item : Item) : Item :=
  let counted := { item with
    supportCount := item.supportCount + 1
    currentStatus := item.currentStatus.repeated }
  if item.currentStatus.repeated = .observed then counted.clearStale else counted

/-- An item for which another value was observed. -/
def Item.contradicted (item : Item) (now : Instant) : Item :=
  { item with
    contradictionCount := item.contradictionCount + 1
    currentStatus := .ambiguous
    isStale := true
    staleReasonCode := some .contradictoryEvidence
    staleDetectedAt := some now }

def Item.observed (item : Item) (prior : Version) (value : ValuePayload) (now : Instant) : Item :=
  (if prior.valuePayload = value then item.supported else item.contradicted now).advanced now

/-- `_decision_status` -/
def decisionStatus : Status → Action → Except Error Status
  | .observed, .confirm => .ok .confirmed
  | .observed, .reject => .ok .rejected
  | .confirmed, .correct => .ok .corrected
  | .confirmed, .deprecate => .ok .deprecated
  | .corrected, .correct => .ok .corrected
  | .corrected, .deprecate => .ok .deprecated
  | .ambiguous, .correct => .ok .corrected
  | .ambiguous, .reject => .ok .rejected
  | _, _ =>
    .error (.service "INVALID_MEMORY_TRANSITION" "Operational-memory transition is invalid" 409)

/-- `_REUSABLE` -/
def Status.Reusable (status : Status) : Prop := status = .confirmed ∨ status = .corrected

instance (status : Status) : Decidable status.Reusable := inferInstanceAs (Decidable (_ ∨ _))

/-- The columns that depend on what a decision came to. -/
def Item.settled (item : Item) (status : Status) (now : Instant) : Item :=
  match status with
  | .confirmed | .corrected =>
    { item.clearStale with
      confirmationCount := item.confirmationCount + 1
      lastConfirmedAt := some now
      retentionUntil := some (now + days 730) }
  | .rejected =>
    { item.clearStale with
      rejectionCount := item.rejectionCount + 1
      retentionUntil := some (now + days 180) }
  | .deprecated => { item.clearStale with retentionUntil := some (now + days 730) }
  | _ => item

/-- An item after a decision. -/
def Item.decided (item : Item) (status : Status) (now : Instant) : Item :=
  { (item.advanced now).settled status now with currentStatus := status }

def Item.candidateVersion (item : Item) (prior : Option Version) (value : ValuePayload)
    (snapshot : ProvenanceSnapshot) (payload : MemoryCandidateCreate) (sourceFingerprint : String)
    (id : UUID) : Version where
  id := id
  organizationId := item.organizationId
  memoryId := item.id
  versionNumber := item.currentVersionNumber
  supersedesVersionId := prior.map (·.id)
  status := item.currentStatus
  valuePayload := value
  provenanceSnapshot := snapshot
  sourceFingerprint := sourceFingerprint
  confidenceLabel := .unassessed
  decisionReasonCode := none
  idempotencyKey := payload.idempotencyKey
  requestFingerprint := .recordCandidate item.organizationId payload

def Item.decisionVersion (item : Item) (prior : Version) (value : ValuePayload)
    (payload : MemoryDecisionRequest) (id : UUID) : Version where
  id := id
  organizationId := item.organizationId
  memoryId := item.id
  versionNumber := item.currentVersionNumber
  supersedesVersionId := some prior.id
  status := item.currentStatus
  valuePayload := value
  provenanceSnapshot :=
    { prior.provenanceSnapshot with decisionCorrelationId := some payload.correlationId }
  sourceFingerprint := prior.sourceFingerprint
  confidenceLabel := if item.currentStatus.Reusable then .humanConfirmed else .unassessed
  decisionReasonCode := payload.decisionReasonCode
  idempotencyKey := payload.idempotencyKey
  requestFingerprint := .decision item.organizationId item.id payload

/-- Store a changed item with its new version. -/
def Db.append (db : Db) (item : Item) (version : Version) : Except Error (Db × Item × Version) := do
  let versions ← orFail (Table.insert Version.clash version db.versions) .integrity
  return ({
    items := Table.update (·.id = item.id) (fun _ => item) db.items
    versions := versions }, item, version)

/-- Store a new item with its first version. -/
def Db.found (db : Db) (item : Item) (version : Version) : Except Error (Db × Item × Version) := do
  ensure (∀ t ∈ item.validTo, item.validFrom ≤ t) .integrity
  let items ← orFail (Table.insert Item.clash item db.items) .integrity
  let versions ← orFail (Table.insert Version.clash version db.versions) .integrity
  return ({ items := items, versions := versions }, item, version)

/-! ## Candidates -/

/-- What a candidate says once it is validated. -/
structure Candidate where
  organizationId : UUID
  payload : MemoryCandidateCreate
  value : ValuePayload
  normalizedSubject : String
  signature : ContextSignature
  fingerprint : MemoryFingerprint
  sourceFingerprint : String

/-- `_HEX64.fullmatch` -/
def isHex64 (text : String) : Bool :=
  text.length = 64 && text.toList.all fun c => c.isDigit || ('a' ≤ c && c ≤ 'f')

/-- The checks in front of a candidate. -/
def validateCandidate (env : Env) (catalog : Catalog) (organizationId : UUID)
    (payload : MemoryCandidateCreate) : Except Error Candidate := do
  let organization ← catalog.organization organizationId
  validateSubjectPair payload.category payload.subjectKind
  let value ← validatePayload env payload.category payload.valuePayload
  boundedJson env value.document "value_payload"
  boundedJson env payload.provenance.document "provenance_snapshot"
  let sourceFingerprint := env.casefold payload.sourceFingerprint
  ensure (isHex64 sourceFingerprint)
    (.fail "SOURCE_FINGERPRINT_INVALID" "Source fingerprint must be SHA-256")
  catalog.validateProvenance organizationId payload.provenance value
  let normalized ← normalizeSubject env payload.subject
  let signature ← contextSignature env payload.sourceSystemFamily payload.canonicalDomain
    payload.context organization.industry
  let fingerprint ← memoryFingerprint env organizationId payload.category payload.subjectKind
    normalized payload.sourceSystemFamily payload.canonicalDomain signature
  return {
    organizationId := organizationId
    payload := payload
    value := value
    normalizedSubject := normalized
    signature := signature
    fingerprint := fingerprint
    sourceFingerprint := sourceFingerprint }

/-- The item that a first candidate creates. -/
def Candidate.item (c : Candidate) (now : Instant) (id : UUID) : Item where
  id := id
  organizationId := c.organizationId
  category := c.payload.category
  subjectKind := c.payload.subjectKind
  normalizedSubject := c.normalizedSubject
  sourceSystemFamily := c.payload.sourceSystemFamily
  canonicalDomain := c.payload.canonicalDomain
  contextSignature := c.signature
  memoryFingerprint := c.fingerprint
  currentVersionNumber := 1
  currentStatus := .observed
  supportCount := 1
  contradictionCount := 0
  confirmationCount := 0
  rejectionCount := 0
  isStale := false
  staleReasonCode := none
  staleDetectedAt := none
  lastConfirmedAt := none
  lastValidatedAt := some now
  validFrom := now
  validTo := c.payload.validTo
  securityClassification := c.payload.securityClassification
  retentionUntil := some (now + days 180)

/-- The provenance that a candidate stores; one with another value names what it conflicts with. -/
def Candidate.snapshot (c : Candidate) (prior : Option Version) : ProvenanceSnapshot where
  provenance := c.payload.provenance
  conflictingVersionIds := (prior.filter (·.valuePayload ≠ c.value)).map fun v => [v.id]
  decisionCorrelationId := none

def Candidate.version (c : Candidate) (item : Item) (prior : Option Version) (id : UUID) :
    Version :=
  item.candidateVersion prior c.value (c.snapshot prior) c.payload c.sourceFingerprint id

/-- A candidate that is not a replay. -/
def Db.observe (db : Db) (c : Candidate) (now : Instant) (itemId versionId : UUID) :
    Except Error (Db × Item × Version) :=
  match db.items.find? fun i => i.organizationId = c.organizationId ∧
    i.category = c.payload.category ∧ i.memoryFingerprint = c.fingerprint with
  | none =>
    let item := c.item now itemId
    db.found item (c.version item none versionId)
  | some item => do
    let prior ← db.currentVersion item
    let observed := item.observed prior c.value now
    db.append observed (c.version observed (some prior) versionId)

/-- `OperationalMemoryService.record_candidate` -/
def Db.recordCandidate (db : Db) (env : Env) (catalog : Catalog) (organizationId : UUID)
    (payload : MemoryCandidateCreate) (now : Instant) (itemId versionId : UUID) :
    Except Error (Db × Item × Version) := do
  let candidate ← validateCandidate env catalog organizationId payload
  match ← db.idempotentVersion organizationId payload.idempotencyKey
    (.recordCandidate organizationId payload) with
  | some existing => return (db, ← db.item organizationId existing.memoryId, existing)
  | none => db.observe candidate now itemId versionId

/-! ## Decisions -/

def decidedValue (env : Env) (category : Category) (prior : Version)
    (payload : MemoryDecisionRequest) : Except Error ValuePayload :=
  match payload.action with
  | .correct => do
    let corrected ← orFail payload.correctedPayload
      (.fail "CORRECTION_REQUIRED" "Correction payload is required")
    validatePayload env category corrected
  | _ => do
    ensure (payload.correctedPayload = none)
      (.fail "CORRECTION_NOT_ALLOWED" "Correction payload is only valid for CORRECT")
    return prior.valuePayload

/-- A decision that is not a replay. -/
def Db.settle (db : Db) (env : Env) (organizationId memoryId : UUID)
    (payload : MemoryDecisionRequest) (now : Instant) (versionId : UUID) :
    Except Error (Db × Item × Version) := do
  let item ← db.item organizationId memoryId
  ensure (item.currentVersionNumber = payload.expectedCurrentVersion)
    (.service "MEMORY_VERSION_CONFLICT" "Operational memory version changed" 409)
  let prior ← db.currentVersion item
  let status ← decisionStatus item.currentStatus payload.action
  let value ← decidedValue env item.category prior payload
  boundedJson env value.document "value_payload"
  let decided := item.decided status now
  db.append decided (decided.decisionVersion prior value payload versionId)

/-- `OperationalMemoryService.decide` -/
def Db.decide (db : Db) (env : Env) (organizationId memoryId : UUID)
    (payload : MemoryDecisionRequest) (now : Instant) (versionId : UUID) :
    Except Error (Db × Item × Version) := do
  match ← db.idempotentVersion organizationId payload.idempotencyKey
    (.decision organizationId memoryId payload) with
  | some existing => return (db, ← db.item organizationId existing.memoryId, existing)
  | none => db.settle env organizationId memoryId payload now versionId

/-! ## The service -/

/-- The calls that write memory. -/
inductive Request
  | recordCandidate (payload : MemoryCandidateCreate)
  | decide (memoryId : UUID) (payload : MemoryDecisionRequest)

/-- A call: the organization that it is made for, the tables that it finds, the clock, and the
identifiers that new rows get. -/
structure Call where
  organizationId : UUID
  catalog : Catalog
  now : Instant
  (itemId versionId : UUID)
  request : Request

def serve (env : Env) (db : Db) (call : Call) : Except Error (Db × Item × Version) :=
  match call.request with
  | .recordCandidate payload =>
    db.recordCandidate env call.catalog call.organizationId payload call.now call.itemId
      call.versionId
  | .decide memoryId payload =>
    db.decide env call.organizationId memoryId payload call.now call.versionId

def service (env : Env) : Service Db Call (Item × Version) Error := serve env

/-- No memory yet. -/
def Db.empty : Db where
  items := []
  versions := []

end Intel4Ops.OperationalMemory

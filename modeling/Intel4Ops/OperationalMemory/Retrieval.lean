import Intel4Ops.OperationalMemory.Lifecycle
import Mathlib.Data.Prod.Lex

/-!
# Retrieval

A request names a subject in a context and gets back the memories that may be reused, ranked. Every
suggestion is recorded, and a request that comes again under its key is answered from the record.
The rows that a query without an order returns come in the order of the table. Latencies and the
columns that are the same in every record are left out.
-/

namespace Intel4Ops.OperationalMemory

open Lib

/-! ## Requests and records -/

/-- `MemoryRetrieveRequest` -/
structure MemoryRetrieveRequest where
  idempotencyKey : String
  category : Category
  subjectKind : SubjectKind
  subject : String
  (sourceSystemFamily canonicalDomain : Option String)
  context : MemoryContext
  maxSuggestions : ℕ
  correlationId : Option String
  bounds : 1 ≤ maxSuggestions ∧ maxSuggestions ≤ 5
  deriving DecidableEq

/-- `match_reasons` -/
inductive MatchReason
  | exactCategory | exactNormalizedSubject | tenantScope | exactContextSignature
  | exactSourceSystemFamily | exactCanonicalDomain
  deriving DecidableEq

/-- What a record says: a suggestion, or that there was none. -/
inductive ReuseOutcome
  | retrieved (memoryId memoryVersionId : UUID) (rank : ℕ) (matchReasons : List MatchReason)
  | noMatch
  deriving DecidableEq

/-- `OperationalMemoryReuseEvent`; the request stands for its fingerprint. -/
structure ReuseEvent where
  organizationId : UUID
  idempotencyKey : String
  eventSequence : ℕ
  outcome : ReuseOutcome
  suggestionCount : ℕ
  contextFingerprint : ContextSignature
  requestFingerprint : MemoryRetrieveRequest
  occurredAt : Instant

/-- Memory with the records of its reuse. -/
structure Store where
  memory : Db
  events : List ReuseEvent

/-- `MemorySuggestionRead` -/
structure MemorySuggestion where
  (memoryId versionId : UUID)
  category : Category
  status : Status
  normalizedSubject : String
  matchReasons : List MatchReason
  (lastConfirmedAt lastValidatedAt : Option Instant)
  (stale ambiguous : Bool)
  provenance : MemoryProvenance
  interpretedPayload : ValuePayload
  rank : ℕ

/-- `MemoryRetrieveRead` -/
structure MemoryRetrieveRead where
  requestFingerprint : MemoryRetrieveRequest
  evaluatedCount : ℕ
  suggestions : List MemorySuggestion

/-! ## Staleness -/

/-- `SchemaStatus` -/
inductive SchemaStatus
  | unknown | discovered | stable | changed | incompatible | approved
  deriving DecidableEq

/-- `MappingLifecycleStatus` -/
inductive MappingLifecycleStatus
  | draft | candidate | validated | approved | published | deprecated | retired
  deriving DecidableEq

/-- The statuses of the rows that a value comes from. -/
structure Sources where
  schemas : List (UUID × SchemaStatus)
  templateVersions : List (UUID × MappingLifecycleStatus)

/-- A schema that is there and has not changed. -/
def Sources.SchemaUsable (sources : Sources) (id : UUID) : Prop :=
  ∃ schema ∈ sources.schemas, schema.1 = id ∧ schema.2 ≠ .changed ∧ schema.2 ≠ .incompatible

/-- A template version that is there and in use. -/
def Sources.TemplateUsable (sources : Sources) (id : UUID) : Prop :=
  ∃ version ∈ sources.templateVersions, version.1 = id ∧ version.2 ≠ .deprecated ∧
    version.2 ≠ .retired

instance (sources : Sources) (id : UUID) : Decidable (sources.SchemaUsable id) :=
  inferInstanceAs (Decidable (∃ _ ∈ _, _))

instance (sources : Sources) (id : UUID) : Decidable (sources.TemplateUsable id) :=
  inferInstanceAs (Decidable (∃ _ ∈ _, _))

/-- What a call reads besides memory. -/
structure Surroundings where
  catalog : Catalog
  sources : Sources

/-- The validity of an item has ended. -/
def Item.Expired (item : Item) (now : Instant) : Prop := ∃ t ∈ item.validTo, t ≤ now

instance (item : Item) (now : Instant) : Decidable (item.Expired now) :=
  inferInstanceAs (Decidable (∃ _ ∈ _, _))

/-- The first reason of `_refresh_staleness`: validity, contradiction or schema. -/
def Item.ownReason (item : Item) (version : Version) (sources : Sources) (now : Instant) :
    Option StaleReason :=
  if item.Expired now then some .validityExpired
  else if item.currentStatus = .ambiguous then some .contradictoryEvidence
  else if ∃ id ∈ version.provenanceSnapshot.provenance.sourceSchemaId, ¬ sources.SchemaUsable id then
    some .schemaChanged
  else none

/-- The reasons of `_refresh_staleness` in their order. -/
def Item.staleReason (item : Item) (version : Version) (around : Surroundings) (now : Instant) :
    Option StaleReason :=
  let provenance := version.provenanceSnapshot.provenance
  (item.ownReason version around.sources now).or <|
    if ∃ id ∈ provenance.mappingTemplateVersionId, ¬ around.sources.TemplateUsable id then
      some .mappingVersionRetired
    else if ∃ id ∈ provenance.canonicalFieldDefinitionIds,
        (around.catalog.validateCanonicalField item.organizationId id).isOk = false then
      some .canonicalDefinitionIncompatible
    else none

/-- `_refresh_staleness` -/
def Item.refreshed (item : Item) (version : Version) (around : Surroundings) (now : Instant) :
    Item :=
  match item.staleReason version around now with
  | some reason =>
    { item with
      isStale := true
      staleReasonCode := some reason
      staleDetectedAt := item.staleDetectedAt.or (some now)
      lastValidatedAt := some now }
  | none =>
    if item.staleReasonCode = some .contradictoryEvidence then
      { item with lastValidatedAt := some now }
    else { item.clearStale with lastValidatedAt := some now }

/-! ## Candidates and their order -/

/-- What a request asks for. -/
structure Wanted where
  organizationId : UUID
  payload : MemoryRetrieveRequest
  normalizedSubject : String
  signature : ContextSignature
  deriving DecidableEq

/-- The condition of the query. -/
def Wanted.Matches (w : Wanted) (item : Item) : Prop :=
  item.organizationId = w.organizationId ∧ item.category = w.payload.category ∧
    item.normalizedSubject = w.normalizedSubject ∧ item.currentStatus.Reusable

instance (w : Wanted) (item : Item) : Decidable (w.Matches item) :=
  inferInstanceAs (Decidable (_ ∧ _))

/-- A row that the loop of `retrieve` looks at, behind the refresh. -/
abbrev Row := Item × Version

/-- The row is not passed over. -/
def Row.Eligible (row : Row) (now : Instant) : Prop := row.1.isStale = false ∧ ¬ row.1.Expired now

instance (row : Row) (now : Instant) : Decidable (Row.Eligible row now) :=
  inferInstanceAs (Decidable (_ ∧ _))

/-- The reasons that a suggestion gives. -/
def Wanted.reasons (w : Wanted) (item : Item) : List MatchReason :=
  [.exactCategory, .exactNormalizedSubject, .tenantScope] ++
    (if item.contextSignature = w.signature then [.exactContextSignature] else []) ++
    (if item.sourceSystemFamily = w.payload.sourceSystemFamily then [.exactSourceSystemFamily]
      else []) ++
    (if item.canonicalDomain = w.payload.canonicalDomain then [.exactCanonicalDomain] else [])

/-- `version.value_payload.get("schema_fingerprint", "")` -/
def ValuePayload.schemaFingerprint : ValuePayload → String
  | fieldMapping payload => payload.schemaFingerprint
  | schemaPattern payload => payload.schemaFingerprint
  | terminology _ => ""

/-- The latest confirmation, or else validation; there is always one behind the refresh. -/
def Item.timestamp (item : Item) : Instant :=
  (item.lastConfirmedAt.or item.lastValidatedAt).getD item.validFrom

/-- The key by which candidates are ordered, from left to right. -/
abbrev RankingKey := Bool ×ₗ Bool ×ₗ Bool ×ₗ Bool ×ₗ ℤ ×ₗ ℤ ×ₗ ℤ ×ₗ ℕ

/-- `_ranking_key` -/
def Wanted.rankingKey (w : Wanted) (env : Env) (row : Row) : RankingKey :=
  toLex (decide (row.1.contextSignature ≠ w.signature),
    toLex (decide (row.1.sourceSystemFamily ≠ w.payload.sourceSystemFamily),
      toLex (decide (env.casefold row.2.valuePayload.schemaFingerprint ≠
          env.casefold (w.payload.context.schemaFingerprint.getD "")),
        toLex (decide (row.1.canonicalDomain ≠ w.payload.canonicalDomain),
          toLex (-row.1.timestamp,
            toLex (-(row.1.confirmationCount : ℤ), toLex (-(row.1.supportCount : ℤ), row.1.id)))))))

/-- `candidates.sort` -/
def Wanted.ranked (w : Wanted) (env : Env) (rows : List Row) : List Row :=
  rows.insertionSort fun a b => w.rankingKey env a ≤ w.rankingKey env b

/-- `_suggestion` -/
def suggestion (item : Item) (version : Version) (reasons : List MatchReason) (rank : ℕ) :
    MemorySuggestion where
  memoryId := item.id
  versionId := version.id
  category := item.category
  status := item.currentStatus
  normalizedSubject := item.normalizedSubject
  matchReasons := reasons
  lastConfirmedAt := item.lastConfirmedAt
  lastValidatedAt := item.lastValidatedAt
  stale := item.isStale
  ambiguous := item.currentStatus = .ambiguous
  provenance := version.provenanceSnapshot.provenance
  interpretedPayload := version.valuePayload
  rank := rank

/-- The suggestions that are made of ranked rows. -/
def Wanted.suggestions (w : Wanted) (rows : List Row) : List MemorySuggestion :=
  rows.mapIdx fun i row => suggestion row.1 row.2 (w.reasons row.1) (i + 1)

/-! ## The operation -/

/-- The loop over the rows of the query. -/
def Db.scan (db : Db) (around : Surroundings) (now : Instant) (items : List Item) :
    Except Error (List Row) :=
  items.mapM fun item => do
    let version ← db.currentVersion item
    return (item.refreshed version around now, version)

/-- The scanned rows are stored. -/
def Db.store (db : Db) (rows : List Row) : Db :=
  { db with items := db.items.map fun item =>
      ((rows.find? fun row => row.1.id = item.id).map (·.1)).getD item }

/-- The records of an answer. -/
def Wanted.events (w : Wanted) (selected : List Row) (now : Instant) : List ReuseEvent :=
  let event (sequence : ℕ) (outcome : ReuseOutcome) : ReuseEvent := {
    organizationId := w.organizationId
    idempotencyKey := w.payload.idempotencyKey
    eventSequence := sequence
    outcome := outcome
    suggestionCount := selected.length
    contextFingerprint := w.signature
    requestFingerprint := w.payload
    occurredAt := now }
  match selected with
  | [] => [event 1 .noMatch]
  | _ => selected.mapIdx fun i row =>
    event (i + 1) (.retrieved row.1.id row.2.id (i + 1) (w.reasons row.1))

/-- A request under a new key. -/
def Store.answer (store : Store) (env : Env) (around : Surroundings) (now : Instant)
    (w : Wanted) : Except Error (Store × MemoryRetrieveRead) := do
  let items := (store.memory.items.filter fun item => w.Matches item).take 20
  let rows ← store.memory.scan around now items
  let candidates := w.ranked env (rows.filter fun row => Row.Eligible row now)
  let selected := candidates.take w.payload.maxSuggestions
  return ({ memory := store.memory.store rows, events := store.events ++ w.events selected now }, {
    requestFingerprint := w.payload
    evaluatedCount := candidates.length
    suggestions := w.suggestions selected })

/-- The records of a key in their sequence. -/
def Store.priorEvents (store : Store) (organizationId : UUID) (key : String) : List ReuseEvent :=
  (store.events.filter fun e => e.organizationId = organizationId ∧ e.idempotencyKey = key)
    |>.insertionSort fun a b => a.eventSequence ≤ b.eventSequence

/-- An `assert` that fails. -/
def assertionFailed : Error := .service "AssertionError" "" 500

/-- The suggestion of a record, with the item and the version as they are now. -/
def Db.replayed (db : Db) (e : ReuseEvent) : Except Error MemorySuggestion :=
  match e.outcome with
  | .noMatch => .error assertionFailed
  | .retrieved memoryId memoryVersionId rank reasons => do
    let item ← db.item e.organizationId memoryId
    let version ← orFail
      (db.versions.find? fun v => v.id = memoryVersionId ∧ v.organizationId = e.organizationId)
      (.service "MEMORY_PROJECTION_INVALID" "Retrieval history is inconsistent" 409)
    return suggestion item version reasons rank

/-- `_replay_retrieval` -/
def Db.replayRetrieval (db : Db) (payload : MemoryRetrieveRequest) (events : List ReuseEvent) :
    Except Error MemoryRetrieveRead :=
  if events.head?.map (·.outcome) = some .noMatch then .ok ⟨payload, 0, []⟩
  else do
    let suggestions ← events.mapM db.replayed
    return ⟨payload, suggestions.length, suggestions⟩

/-- What a request asks for, once it is validated. -/
def validateRetrieve (env : Env) (catalog : Catalog) (organizationId : UUID)
    (payload : MemoryRetrieveRequest) : Except Error Wanted := do
  let organization ← catalog.organization organizationId
  validateSubjectPair payload.category payload.subjectKind
  let normalized ← normalizeSubject env payload.subject
  let signature ← contextSignature env payload.sourceSystemFamily payload.canonicalDomain
    payload.context organization.industry
  return {
    organizationId := organizationId
    payload := payload
    normalizedSubject := normalized
    signature := signature }

/-- `OperationalMemoryService.retrieve` -/
def Store.retrieve (store : Store) (env : Env) (around : Surroundings) (organizationId : UUID)
    (payload : MemoryRetrieveRequest) (now : Instant) :
    Except Error (Store × MemoryRetrieveRead) := do
  let wanted ← validateRetrieve env around.catalog organizationId payload
  match store.priorEvents organizationId payload.idempotencyKey with
  | [] => store.answer env around now wanted
  | prior => do
    ensure (∀ e ∈ prior, e.requestFingerprint = payload)
      (.service "IDEMPOTENCY_CONFLICT" "Idempotency key was reused" 409)
    let read ← store.memory.replayRetrieval payload prior
    return (store, read)

/-! ## The service -/

/-- A request for suggestions. -/
structure RetrieveCall where
  organizationId : UUID
  around : Surroundings
  now : Instant
  payload : MemoryRetrieveRequest

/-- The calls that write memory, and the ones that retrieve. -/
inductive StoreCall
  | write (call : Call)
  | retrieve (call : RetrieveCall)

/-- What they return. -/
inductive StoreReply
  | written (item : Item) (version : Version)
  | retrieved (read : MemoryRetrieveRead)

def Store.serve (env : Env) (store : Store) : StoreCall → Except Error (Store × StoreReply)
  | .write call => (OperationalMemory.serve env store.memory call).map fun result =>
      ({ store with memory := result.1 }, .written result.2.1 result.2.2)
  | .retrieve call => (store.retrieve env call.around call.organizationId call.payload
      call.now).map (Prod.map id StoreReply.retrieved)

def storeService (env : Env) : Service Store StoreCall StoreReply Error := Store.serve env

/-- No memory and no records. -/
def Store.empty : Store := ⟨.empty, []⟩

end Intel4Ops.OperationalMemory

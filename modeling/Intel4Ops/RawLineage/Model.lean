import Intel4Ops.Lib.Except
import Intel4Ops.Lib.Ident
import Intel4Ops.Lib.Service
import Intel4Ops.Lib.Table
import Mathlib.Data.Finset.Card

/-!
# Raw storage and lineage: the service

The stored tables of `app/models/raw_lineage.py` and the operations of
`app/services/raw_lineage_service.py` over them: lineage nodes and edges with the bounded cycle
check, and the life of a raw storage object (registration, lifecycle, integrity, legal hold).

Rows keep the columns that these operations read or write. The tables owned by other services
(`Context`) may change between any two requests. An operation takes the identifiers it draws as
arguments, and inserting a row checks them like every other unique constraint.
-/

namespace Intel4Ops.RawLineage

open Lib Prod

/-! ## Enumerations -/

inductive RawObjectStatus
  | registered
  | receiving
  | received
  | verifying
  | sealed
  | quarantined
  | superseded
  | archived
  | deletionRequested
  | deletedReference
  deriving DecidableEq

def RawObjectStatus.value : RawObjectStatus → String
  | registered => "registered"
  | receiving => "receiving"
  | received => "received"
  | verifying => "verifying"
  | sealed => "sealed"
  | quarantined => "quarantined"
  | superseded => "superseded"
  | archived => "archived"
  | deletionRequested => "deletion_requested"
  | deletedReference => "deleted_reference"

inductive IntegrityStatus
  | unknown
  | pending
  | verified
  | mismatch
  | corrupted
  | unavailable
  deriving DecidableEq

inductive ChecksumAlgorithm
  | sha256
  | sha512
  | md5
  deriving DecidableEq

inductive SourceSystemStatus
  | draft
  | configured
  | validating
  | active
  | paused
  | failed
  | decommissioned
  deriving DecidableEq

def SourceSystemStatus.value : SourceSystemStatus → String
  | draft => "draft"
  | configured => "configured"
  | validating => "validating"
  | active => "active"
  | paused => "paused"
  | failed => "failed"
  | decommissioned => "decommissioned"

/-- `DOWNSTREAM_CREATION_SOURCE_STATUSES`. -/
def downstreamCreationSourceStatuses : List SourceSystemStatus := [.active]

inductive LineageNodeType
  | sourceSystem
  | ingestionBatch
  | dataset
  | datasetVersion
  | rawStorageObject
  | rawRecordReference
  | processingRun
  | sourceSchema
  | mappingRun
  | mappingRecordResult
  | canonicalEntity
  | canonicalEvent
  | canonicalMetric
  | custom
  deriving DecidableEq

inductive LineageRelationshipType
  | originatesFrom
  | deliveredIn
  | describes
  | storedAs
  | contains
  | extractedFrom
  | parsedFrom
  | derivedFrom
  | transformedFrom
  | validatedAgainst
  | supersedes
  | producedBy
  | consumedBy
  | mappedBy
  | canonicalizedAs
  | resolvedTo
  | linkedTo
  | custom
  deriving DecidableEq

inductive LineageEventType
  | registered
  | received
  | checksumVerified
  | integrityMismatch
  | sealed
  | quarantined
  | superseded
  | archived
  | deletionRequested
  | referenceDeleted
  | lineageLinkCreated
  | processingStarted
  | processingCompleted
  | processingFailed
  | legalHoldApplied
  | legalHoldReleased
  | custom

inductive ActorType
  | user
  | service
  | system

/-! ## Errors -/

/-- How a request fails: the three errors of the service, and a violated unique constraint. -/
inductive RawLineageError
  | notFound (detail : String)
  | conflict (detail : String)
  | tenantMismatch (detail : String)
  | integrity (constraint : String)

/-! ## Rows -/

structure SourceSystem where
  (id organizationId : UUID)
  status : SourceSystemStatus

structure IngestionBatch where
  (id organizationId sourceSystemId : UUID)

structure Dataset where
  (id organizationId sourceSystemId : UUID)

structure DatasetVersion where
  (id organizationId datasetId ingestionBatchId : UUID)

/-- A row of which only the identity is read here. -/
structure TenantRow where
  (id organizationId : UUID)

structure RawStorageObject where
  (id organizationId sourceSystemId ingestionBatchId datasetVersionId : UUID)
  objectNumber : String
  idempotencyKey : Option String
  storageReference : String
  contentChecksumAlgorithm : ChecksumAlgorithm
  contentChecksum : String
  sizeBytes : Nat
  status : RawObjectStatus
  integrityStatus : IntegrityStatus
  legalHold : Bool
  legalHoldReason : Option String
  (sealedAt verifiedAt : Option Instant)
  supersedesRawObjectId : Option UUID
  createdByUserId : UUID

structure LineageNode where
  (id organizationId : UUID)
  nodeType : LineageNodeType
  entityId : UUID
  deriving DecidableEq

structure LineageEdge where
  (id organizationId fromNodeId toNodeId : UUID)
  relationshipType : LineageRelationshipType
  processingRunId : Option UUID
  processingRunKey : String
  createdByUserId : UUID
  deriving DecidableEq

structure LineageEvent where
  organizationId : UUID
  eventType : LineageEventType
  entityType : String
  entityId : UUID
  processingRunId : Option UUID
  actorType : ActorType
  actorUserId : Option UUID
  summary : Option String

/-- The tables of other services that the operations read. -/
structure Context where
  sourceSystems : List SourceSystem
  ingestionBatches : List IngestionBatch
  datasets : List Dataset
  datasetVersions : List DatasetVersion
  (rawRecordReferences processingRuns : List TenantRow)

structure Db where
  context : Context
  rawStorageObjects : List RawStorageObject
  lineageNodes : List LineageNode
  lineageEdges : List LineageEdge
  lineageEvents : List LineageEvent

/-- No raw object and no lineage stored yet, over any tables of the other services. -/
def Db.empty (context : Context) : Db := ⟨context, [], [], [], []⟩

/-! ## Payloads -/

structure LineageNodeCreate where
  nodeType : LineageNodeType
  entityId : UUID

structure LineageEdgeCreate where
  (fromNodeId toNodeId : UUID)
  relationshipType : LineageRelationshipType
  processingRunId : Option UUID := none

structure RawStorageObjectCreate where
  (sourceSystemId ingestionBatchId datasetVersionId : UUID)
  objectNumber : String
  idempotencyKey : Option String
  storageReference : String
  contentChecksumAlgorithm : ChecksumAlgorithm
  contentChecksum : String
  sizeBytes : Nat
  supersedesRawObjectId : Option UUID

structure IntegrityVerification where
  checksumAlgorithm : ChecksumAlgorithm
  checksum : String
  matched : Bool

/-! ## Unique constraints -/

/-- Primary key and `uq_lineage_node_entity`. -/
def LineageNode.Clash (a b : LineageNode) : Prop :=
  a.id = b.id ∨
    a.organizationId = b.organizationId ∧ a.nodeType = b.nodeType ∧ a.entityId = b.entityId

instance (a b : LineageNode) : Decidable (a.Clash b) := inferInstanceAs (Decidable (_ ∨ _))

/-- Primary key and `uq_lineage_edge_identity`. -/
def LineageEdge.Clash (a b : LineageEdge) : Prop :=
  a.id = b.id ∨
    a.organizationId = b.organizationId ∧ a.fromNodeId = b.fromNodeId ∧
      a.toNodeId = b.toNodeId ∧ a.relationshipType = b.relationshipType ∧
      a.processingRunKey = b.processingRunKey

instance (a b : LineageEdge) : Decidable (a.Clash b) := inferInstanceAs (Decidable (_ ∨ _))

/-- Primary key, `uq_raw_objects_organization_number` and
`uq_raw_objects_organization_idempotency`; a missing idempotency key never clashes. -/
def RawStorageObject.Clash (a b : RawStorageObject) : Prop :=
  a.id = b.id ∨
    a.organizationId = b.organizationId ∧
      (a.objectNumber = b.objectNumber ∨
        a.idempotencyKey.isSome ∧ a.idempotencyKey = b.idempotencyKey)

instance (a b : RawStorageObject) : Decidable (a.Clash b) := inferInstanceAs (Decidable (_ ∨ _))

/-! ## Events -/

namespace LineageEventService

def record (db : Db) (organizationId : UUID) (eventType : LineageEventType) (entityType : String)
    (entityId : UUID) (actorUserId : Option UUID) (processingRunId : Option UUID := none)
    (summary : Option String := none) : Db :=
  { db with
    lineageEvents := db.lineageEvents ++
      [{ organizationId, eventType, entityType, entityId, processingRunId
         actorType := if actorUserId.isSome then .user else .system
         actorUserId, summary }] }

end LineageEventService

/-! ## Lineage -/

namespace LineageService

/-- `MAX_LINEAGE_DEPTH`. -/
def maxLineageDepth : Nat := 10

/-- `MAX_LINEAGE_NODES`. -/
def maxLineageNodes : Nat := 500

/-- `acyclic_relationships`. -/
def acyclicRelationships : List LineageRelationshipType :=
  [.derivedFrom, .transformedFrom, .extractedFrom, .parsedFrom, .producedBy, .consumedBy]

/-- The lookup of an entity in the table that `entity_models` names for its node type; `none` when
no table is registered for the type. -/
def entityExists (db : Db) (organizationId entityId : UUID) : LineageNodeType → Option Bool
  | .sourceSystem => some <| db.context.sourceSystems.any fun r =>
      r.id = entityId ∧ r.organizationId = organizationId
  | .ingestionBatch => some <| db.context.ingestionBatches.any fun r =>
      r.id = entityId ∧ r.organizationId = organizationId
  | .dataset => some <| db.context.datasets.any fun r =>
      r.id = entityId ∧ r.organizationId = organizationId
  | .datasetVersion => some <| db.context.datasetVersions.any fun r =>
      r.id = entityId ∧ r.organizationId = organizationId
  | .rawStorageObject => some <| db.rawStorageObjects.any fun r =>
      r.id = entityId ∧ r.organizationId = organizationId
  | .rawRecordReference => some <| db.context.rawRecordReferences.any fun r =>
      r.id = entityId ∧ r.organizationId = organizationId
  | .processingRun => some <| db.context.processingRuns.any fun r =>
      r.id = entityId ∧ r.organizationId = organizationId
  | _ => none

def registerNode (db : Db) (organizationId : UUID) (payload : LineageNodeCreate) (id : UUID) :
    Except RawLineageError (Db × LineageNode) :=
  match db.lineageNodes.find? fun n => n.organizationId = organizationId ∧
      n.nodeType = payload.nodeType ∧ n.entityId = payload.entityId with
  | some existing => .ok (db, existing)
  | none => do
    let found ← orFail (entityExists db organizationId payload.entityId payload.nodeType)
      (.conflict "Custom lineage entities are not registered in WP-2.05")
    ensure found (.tenantMismatch "Lineage entity not found in organization")
    let node : LineageNode :=
      { id, organizationId, nodeType := payload.nodeType, entityId := payload.entityId }
    let nodes ← orFail (Table.insert LineageNode.Clash node db.lineageNodes)
      (.integrity "lineage_nodes")
    return ({ db with lineageNodes := nodes }, node)

def getNode (db : Db) (organizationId nodeId : UUID) : Except RawLineageError LineageNode :=
  orFail (db.lineageNodes.find? fun n => n.id = nodeId ∧ n.organizationId = organizationId)
    (.notFound "Lineage node not found")

/-- The `to_node_id`s of the organization's acyclic edges that leave `frontier`. -/
def nextIds (db : Db) (organizationId : UUID) (frontier : Finset UUID) : Finset UUID :=
  ((db.lineageEdges.filter fun e => e.organizationId = organizationId ∧
    e.fromNodeId ∈ frontier ∧ e.relationshipType ∈ acyclicRelationships).map (·.toNodeId)).toFinset

/-- The rounds of `_reachable` that are left, with the frontier and the nodes seen so far. -/
def reachableLoop (db : Db) (organizationId target : UUID) : Nat → Finset UUID → Finset UUID → Bool
  | 0, _, _ => false
  | rounds + 1, frontier, seen =>
    if frontier = ∅ then false
    else
      let next := nextIds db organizationId frontier
      if target ∈ next then true
      else
        let frontier' := next \ seen
        let seen' := seen ∪ frontier'
        if maxLineageNodes ≤ seen'.card then false
        else reachableLoop db organizationId target rounds frontier' seen'

/-- `_reachable`: breadth-first search along the acyclic edges, cut off by depth and node count. -/
def reachable (db : Db) (organizationId start target : UUID) : Bool :=
  reachableLoop db organizationId target maxLineageDepth {start} {start}

/-- `str(processing_run_id)`, or the empty string without one. -/
def runKey (processingRunId : Option UUID) : String :=
  match processingRunId with
  | some run => toString run
  | none => ""

/-- The stored edge that `create_edge` looks for before it adds one. -/
def findEdge (db : Db) (organizationId : UUID) (payload : LineageEdgeCreate) : Option LineageEdge :=
  db.lineageEdges.find? fun e => e.organizationId = organizationId ∧
    e.fromNodeId = payload.fromNodeId ∧ e.toNodeId = payload.toNodeId ∧
    e.relationshipType = payload.relationshipType ∧
    e.processingRunKey = runKey payload.processingRunId

/-- The checks of `create_edge` before it looks for a stored edge. -/
def checkEdge (db : Db) (organizationId : UUID) (payload : LineageEdgeCreate) :
    Except RawLineageError Unit := do
  let source ← getNode db organizationId payload.fromNodeId
  let target ← getNode db organizationId payload.toNodeId
  ensure (source.id ≠ target.id) (.conflict "A lineage node cannot link to itself")
  match payload.processingRunId with
  | none => pure ()
  | some run =>
    ensure (db.context.processingRuns.any fun r =>
        r.id = run ∧ r.organizationId = organizationId)
      (.tenantMismatch "Processing run not found in organization")

def createEdge (db : Db) (organizationId : UUID) (payload : LineageEdgeCreate)
    (actorUserId id : UUID) : Except RawLineageError (Db × LineageEdge) := do
  checkEdge db organizationId payload
  match findEdge db organizationId payload with
  | some existing => return (db, existing)
  | none =>
    ensure (¬ (payload.relationshipType ∈ acyclicRelationships ∧
        reachable db organizationId payload.toNodeId payload.fromNodeId))
      (.conflict "Lineage edge would create a derivation cycle")
    let edge : LineageEdge :=
      { id, organizationId
        fromNodeId := payload.fromNodeId
        toNodeId := payload.toNodeId
        relationshipType := payload.relationshipType
        processingRunId := payload.processingRunId
        processingRunKey := runKey payload.processingRunId
        createdByUserId := actorUserId }
    let edges ← orFail (Table.insert LineageEdge.Clash edge db.lineageEdges)
      (.integrity "lineage_edges")
    let db := { db with lineageEdges := edges }
    return (LineageEventService.record db organizationId .lineageLinkCreated "lineage_edge" id
      (some actorUserId) payload.processingRunId, edge)

end LineageService

/-! ## Raw storage objects -/

namespace RawStorageObjectService

/-- `transitions`: the statuses that each status may move to. -/
def transitions : RawObjectStatus → List RawObjectStatus
  | .registered => [.receiving, .received]
  | .receiving => [.received, .quarantined]
  | .received => [.verifying, .quarantined]
  | .verifying => [.sealed, .quarantined, .received]
  | .sealed => [.superseded, .archived, .deletionRequested]
  | .quarantined => [.verifying, .archived]
  | .superseded => [.archived]
  | .archived => [.deletionRequested]
  | .deletionRequested => [.deletedReference, .archived]
  | .deletedReference => []

/-- `_context`: the source, batch, version and dataset of a payload, when they fit together. -/
def context (db : Db) (organizationId : UUID) (payload : RawStorageObjectCreate) :
    Except RawLineageError (SourceSystem × IngestionBatch × DatasetVersion × Dataset) := do
  let missing := RawLineageError.tenantMismatch "Raw object context not found in organization"
  let inconsistent := RawLineageError.tenantMismatch "Raw object context is inconsistent"
  let source ← orFail (db.context.sourceSystems.find? fun r =>
    r.id = payload.sourceSystemId ∧ r.organizationId = organizationId) missing
  let batch ← orFail (db.context.ingestionBatches.find? fun r =>
    r.id = payload.ingestionBatchId ∧ r.organizationId = organizationId) missing
  let version ← orFail (db.context.datasetVersions.find? fun r =>
    r.id = payload.datasetVersionId ∧ r.organizationId = organizationId) missing
  let dataset ← orFail (db.context.datasets.find? fun r =>
    r.id = version.datasetId ∧ r.organizationId = organizationId) inconsistent
  ensure (batch.id = version.ingestionBatchId ∧ source.id = batch.sourceSystemId ∧
    source.id = dataset.sourceSystemId) inconsistent
  return (source, batch, version, dataset)

def get (db : Db) (organizationId rawObjectId : UUID) : Except RawLineageError RawStorageObject :=
  orFail (db.rawStorageObjects.find? fun o =>
    o.id = rawObjectId ∧ o.organizationId = organizationId)
    (.notFound "Raw storage object not found")

/-- The columns that a replayed registration compares. -/
def SameIdentity (existing : RawStorageObject) (payload : RawStorageObjectCreate) : Prop :=
  existing.ingestionBatchId = payload.ingestionBatchId ∧
    existing.datasetVersionId = payload.datasetVersionId ∧
    existing.storageReference = payload.storageReference ∧
    existing.contentChecksum = payload.contentChecksum ∧
    existing.sizeBytes = payload.sizeBytes

instance (existing : RawStorageObject) (payload : RawStorageObjectCreate) :
    Decidable (SameIdentity existing payload) :=
  inferInstanceAs (Decidable (_ ∧ _))

/-- The row that `register` adds: the payload with the column defaults. -/
def newObject (organizationId : UUID) (payload : RawStorageObjectCreate)
    (actorUserId id : UUID) : RawStorageObject :=
  { id, organizationId
    sourceSystemId := payload.sourceSystemId
    ingestionBatchId := payload.ingestionBatchId
    datasetVersionId := payload.datasetVersionId
    objectNumber := payload.objectNumber
    idempotencyKey := payload.idempotencyKey
    storageReference := payload.storageReference
    contentChecksumAlgorithm := payload.contentChecksumAlgorithm
    contentChecksum := payload.contentChecksum
    sizeBytes := payload.sizeBytes
    status := .registered
    integrityStatus := .unknown
    legalHold := false
    legalHoldReason := none
    sealedAt := none
    verifiedAt := none
    supersedesRawObjectId := payload.supersedesRawObjectId
    createdByUserId := actorUserId }

/-- A unique constraint that fails while a registration is written is reported as a conflict. -/
def integrityAsConflict {α : Type} (result : Except RawLineageError α) : Except RawLineageError α :=
  match result with
  | .error (.integrity _) => .error (.conflict "Raw object identity already exists")
  | result => result

/-- The five lineage nodes and four lineage edges of a registered object. -/
def linkObject (db : Db) (organizationId actorUserId : UUID) (ids : Nat → UUID)
    (sourceId batchId datasetId versionId objectId : UUID) : Except RawLineageError Db := do
  let (db, source) ← LineageService.registerNode db organizationId ⟨.sourceSystem, sourceId⟩ (ids 1)
  let (db, batch) ← LineageService.registerNode db organizationId ⟨.ingestionBatch, batchId⟩ (ids 2)
  let (db, dataset) ← LineageService.registerNode db organizationId ⟨.dataset, datasetId⟩ (ids 3)
  let (db, version) ← LineageService.registerNode db organizationId
    ⟨.datasetVersion, versionId⟩ (ids 4)
  let (db, raw) ← LineageService.registerNode db organizationId
    ⟨.rawStorageObject, objectId⟩ (ids 5)
  let (db, _) ← LineageService.createEdge db organizationId
    { fromNodeId := source.id, toNodeId := batch.id, relationshipType := .originatesFrom }
    actorUserId (ids 6)
  let (db, _) ← LineageService.createEdge db organizationId
    { fromNodeId := batch.id, toNodeId := version.id, relationshipType := .deliveredIn }
    actorUserId (ids 7)
  let (db, _) ← LineageService.createEdge db organizationId
    { fromNodeId := dataset.id, toNodeId := version.id, relationshipType := .describes }
    actorUserId (ids 8)
  let (db, _) ← LineageService.createEdge db organizationId
    { fromNodeId := version.id, toNodeId := raw.id, relationshipType := .storedAs }
    actorUserId (ids 9)
  return db

/-- A superseded object has to exist. The payload has no `id`, so the source's check against an
object that supersedes itself never fires. -/
def checkSupersedes (db : Db) (organizationId : UUID) (payload : RawStorageObjectCreate) :
    Except RawLineageError Unit :=
  match payload.supersedesRawObjectId with
  | none => .ok ()
  | some prior => (get db organizationId prior).map fun _ => ()

/-- The part of `register` behind the replay check: a new object with its lineage. -/
def registerNew (db : Db) (organizationId : UUID) (payload : RawStorageObjectCreate)
    (actorUserId : UUID) (ids : Nat → UUID)
    (anchors : SourceSystem × IngestionBatch × DatasetVersion × Dataset) :
    Except RawLineageError (Db × RawStorageObject) := do
  let (source, batch, version, dataset) := anchors
  ensure (source.status ∈ downstreamCreationSourceStatuses)
    (.conflict ("Source system status '" ++ source.status.value ++
      "' does not permit new downstream data"))
  ensure (¬ db.rawStorageObjects.any fun o =>
      o.organizationId = organizationId ∧ o.objectNumber = payload.objectNumber)
    (.conflict "Object number already exists")
  checkSupersedes db organizationId payload
  integrityAsConflict do
    let raw := newObject organizationId payload actorUserId (ids 0)
    let objects ← orFail (Table.insert RawStorageObject.Clash raw db.rawStorageObjects)
      (.integrity "raw_storage_objects")
    let db ← linkObject { db with rawStorageObjects := objects } organizationId actorUserId ids
      source.id batch.id dataset.id version.id raw.id
    return (LineageEventService.record db organizationId .registered "raw_storage_object" raw.id
      (some actorUserId), raw)

def register (db : Db) (organizationId : UUID) (payload : RawStorageObjectCreate)
    (actorUserId : UUID) (ids : Nat → UUID) :
    Except RawLineageError (Db × RawStorageObject) := do
  let anchors ← context db organizationId payload
  match payload.idempotencyKey.bind fun key => db.rawStorageObjects.find? fun o =>
      o.organizationId = organizationId ∧ o.idempotencyKey = some key with
  | some existing =>
    ensure (SameIdentity existing payload)
      (.conflict "Idempotency key conflicts with an existing object")
    return (db, existing)
  | none => registerNew db organizationId payload actorUserId ids anchors

/-- Write `f` to the row of `item`, which is loaded again afterwards. -/
def writeObject (db : Db) (item : RawStorageObject) (f : RawStorageObject → RawStorageObject) :
    Db :=
  { db with rawStorageObjects := Table.update (·.id = item.id) f db.rawStorageObjects }

/-- The event that a move to `target` records. -/
def transitionEvent : RawObjectStatus → LineageEventType
  | .sealed => .sealed
  | .quarantined => .quarantined
  | .superseded => .superseded
  | .archived => .archived
  | .deletionRequested => .deletionRequested
  | .deletedReference => .referenceDeleted
  | .received => .received
  | _ => .custom

/-- The columns that a move to `target` writes. -/
def moveTo (target : RawObjectStatus) (now : Instant) (o : RawStorageObject) : RawStorageObject :=
  { o with
    status := target
    sealedAt := if target = .sealed then some now else o.sealedAt }

def transition (db : Db) (organizationId rawObjectId : UUID) (target : RawObjectStatus)
    (actorUserId : UUID) (now : Instant) (summary : Option String) :
    Except RawLineageError (Db × RawStorageObject) := do
  let item ← get db organizationId rawObjectId
  ensure (target ∈ transitions item.status)
    (.conflict ("Cannot transition from " ++ item.status.value ++ " to " ++ target.value))
  ensure (¬ (target = .sealed ∧ item.integrityStatus ≠ .verified))
    (.conflict "Sealing requires verified integrity")
  ensure (¬ (target = .deletionRequested ∧ item.legalHold)) (.conflict "Legal hold blocks deletion")
  let db := writeObject db item (moveTo target now)
  return (LineageEventService.record db organizationId (transitionEvent target)
    "raw_storage_object" item.id (some actorUserId) none summary, moveTo target now item)

/-- Whether a verification confirms the stored checksum. -/
def checksumMatches (o : RawStorageObject) (payload : IntegrityVerification) : Bool :=
  payload.matched ∧ o.contentChecksumAlgorithm = payload.checksumAlgorithm ∧
    o.contentChecksum = payload.checksum

/-- The columns that a verification writes. -/
def verdict (matched : Bool) (now : Instant) (o : RawStorageObject) : RawStorageObject :=
  { o with
    integrityStatus := if matched then .verified else .mismatch
    verifiedAt := if matched then some now else none }

def verify (db : Db) (organizationId rawObjectId : UUID) (payload : IntegrityVerification)
    (actorUserId : UUID) (now : Instant) : Except RawLineageError (Db × RawStorageObject) := do
  let item ← get db organizationId rawObjectId
  ensure (item.status ∈ [RawObjectStatus.received, .verifying, .quarantined])
    (.conflict "Object is not eligible for integrity verification")
  let matched := checksumMatches item payload
  let db := writeObject db item (verdict matched now)
  return (LineageEventService.record db organizationId
    (if matched then .checksumVerified else .integrityMismatch) "raw_storage_object" item.id
    (some actorUserId), verdict matched now item)

/-- Set the legal hold with its reason. -/
def hold (reason : String) (o : RawStorageObject) : RawStorageObject :=
  { o with legalHold := true, legalHoldReason := some reason }

/-- Clear the legal hold with its reason. -/
def unhold (o : RawStorageObject) : RawStorageObject :=
  { o with legalHold := false, legalHoldReason := none }

def applyLegalHold (db : Db) (organizationId rawObjectId : UUID) (reason : String)
    (actor : UUID) : Except RawLineageError (Db × RawStorageObject) := do
  let item ← get db organizationId rawObjectId
  let db := writeObject db item (hold reason)
  return (LineageEventService.record db organizationId .legalHoldApplied "raw_storage_object"
    item.id (some actor) none (some reason), hold reason item)

def releaseLegalHold (db : Db) (organizationId rawObjectId : UUID) (actor : UUID) :
    Except RawLineageError (Db × RawStorageObject) := do
  let item ← get db organizationId rawObjectId
  let db := writeObject db item unhold
  return (LineageEventService.record db organizationId .legalHoldReleased "raw_storage_object"
    item.id (some actor), unhold item)

end RawStorageObjectService

/-! ## Requests -/

inductive Request
  | registerNode (payload : LineageNodeCreate)
  | createEdge (payload : LineageEdgeCreate)
  | register (payload : RawStorageObjectCreate)
  | transition (rawObjectId : UUID) (target : RawObjectStatus) (summary : Option String)
  | verify (rawObjectId : UUID) (payload : IntegrityVerification)
  | applyLegalHold (rawObjectId : UUID) (reason : String)
  | releaseLegalHold (rawObjectId : UUID)
  /-- Other services rewrite the tables they own. -/
  | external (context : Context)

/-- A request with its organization and actor, the time it is served and the identifiers drawn. -/
structure Call where
  (organizationId actorUserId : UUID)
  now : Instant
  ids : Nat → UUID
  request : Request

inductive Reply
  | node (node : LineageNode)
  | edge (edge : LineageEdge)
  | object (object : RawStorageObject)
  | done

/-- Serve one request in a transaction of its own. -/
def serve : Service Db Call Reply RawLineageError := fun db call =>
  let org := call.organizationId
  let actor := call.actorUserId
  match call.request with
  | .registerNode payload =>
    (LineageService.registerNode db org payload (call.ids 0)).map (map id .node)
  | .createEdge payload =>
    (LineageService.createEdge db org payload actor (call.ids 0)).map (map id .edge)
  | .register payload =>
    (RawStorageObjectService.register db org payload actor call.ids).map (map id .object)
  | .transition rawObjectId target summary =>
    (RawStorageObjectService.transition db org rawObjectId target actor call.now summary).map
      (map id .object)
  | .verify rawObjectId payload =>
    (RawStorageObjectService.verify db org rawObjectId payload actor call.now).map (map id .object)
  | .applyLegalHold rawObjectId reason =>
    (RawStorageObjectService.applyLegalHold db org rawObjectId reason actor).map (map id .object)
  | .releaseLegalHold rawObjectId =>
    (RawStorageObjectService.releaseLegalHold db org rawObjectId actor).map (map id .object)
  | .external context => .ok ({ db with context }, .done)

end Intel4Ops.RawLineage

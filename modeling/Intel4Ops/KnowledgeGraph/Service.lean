import Intel4Ops.KnowledgeGraph.Model

/-!
# Enterprise knowledge graph: projecting a finding

`GraphProjectionService.project_finding` of `app/services/knowledge_graph_service.py`. A projection
copies the active snapshot of the organization into a new version, adds the finding with the
signature execution that produced it, and makes the new version the active one.
-/

namespace Intel4Ops.KnowledgeGraph

open Lib Table

/-! ## Rows under constraints -/

/-- The rows that a graph version of an organization owns. -/
def KnowledgeGraphNode.In (org versionId : UUID) (n : KnowledgeGraphNode) : Prop :=
  n.organizationId = org ∧ n.graphVersionId = versionId

def KnowledgeGraphEdge.In (org versionId : UUID) (e : KnowledgeGraphEdge) : Prop :=
  e.organizationId = org ∧ e.graphVersionId = versionId

def KnowledgeGraphEdgeEvidence.In (org versionId : UUID) (r : KnowledgeGraphEdgeEvidence) : Prop :=
  r.organizationId = org ∧ r.graphVersionId = versionId

instance (org versionId : UUID) : DecidablePred (KnowledgeGraphNode.In org versionId) :=
  fun _ => inferInstanceAs (Decidable (_ ∧ _))

instance (org versionId : UUID) : DecidablePred (KnowledgeGraphEdge.In org versionId) :=
  fun _ => inferInstanceAs (Decidable (_ ∧ _))

instance (org versionId : UUID) : DecidablePred (KnowledgeGraphEdgeEvidence.In org versionId) :=
  fun _ => inferInstanceAs (Decidable (_ ∧ _))

/-- `uq_kg_node_reference`. -/
def SameReference (n m : KnowledgeGraphNode) : Prop :=
  n.In m.organizationId m.graphVersionId ∧ n.entityTypeVersionId = m.entityTypeVersionId ∧
    n.sourceRegistry = m.sourceRegistry ∧ n.sourceObjectId = m.sourceObjectId ∧
    n.sourceVersionId = m.sourceVersionId

/-- `uq_kg_edge_identity`. -/
def SameIdentity (e d : KnowledgeGraphEdge) : Prop :=
  e.In d.organizationId d.graphVersionId ∧ e.fromNodeId = d.fromNodeId ∧ e.toNodeId = d.toNodeId ∧
    e.relationshipTypeVersionId = d.relationshipTypeVersionId ∧
    e.derivationFingerprint = d.derivationFingerprint

/-- `uq_kg_edge_evidence_reference`. -/
def SameEvidence (r s : KnowledgeGraphEdgeEvidence) : Prop :=
  r.edgeId = s.edgeId ∧ r.sourceObjectId = s.sourceObjectId ∧
    r.integrityFingerprint = s.integrityFingerprint

instance : DecidableRel SameReference := fun _ _ => inferInstanceAs (Decidable (_ ∧ _))

instance : DecidableRel SameIdentity := fun _ _ => inferInstanceAs (Decidable (_ ∧ _))

instance : DecidableRel SameEvidence := fun _ _ => inferInstanceAs (Decidable (_ ∧ _))

/-- Add a node under a new identifier and flush. -/
def addNode (db : Db) (node : KnowledgeGraphNode) :
    Except KnowledgeGraphError (Db × KnowledgeGraphNode) := do
  let node := { node with id := db.nextId }
  let nodes ← orFail (insert SameReference node db.nodes) (.integrity "uq_kg_node_reference")
  return ({ db with nodes, nextId := db.nextId + 1 }, node)

/-- Add an edge under a new identifier and flush. -/
def addEdge (db : Db) (edge : KnowledgeGraphEdge) :
    Except KnowledgeGraphError (Db × KnowledgeGraphEdge) := do
  let edge := { edge with id := db.nextId }
  ensure (edge.fromNodeId ≠ edge.toNodeId) (.integrity "ck_kg_edge_not_self")
  let edges ← orFail (insert SameIdentity edge db.edges) (.integrity "uq_kg_edge_identity")
  return ({ db with edges, nextId := db.nextId + 1 }, edge)

def addEvidence (db : Db) (row : KnowledgeGraphEdgeEvidence) : Except KnowledgeGraphError Db := do
  let evidence ← orFail (insert SameEvidence row db.evidence)
    (.integrity "uq_kg_edge_evidence_reference")
  return { db with evidence }

/-! ## Cloning the active snapshot -/

/-- A dictionary from the identifiers of rows to those of their clones. -/
abbrev IdMapping := List (UUID × UUID)

/-- `mapping[id]`. -/
def IdMapping.get (mapping : IdMapping) (id : UUID) : Except KnowledgeGraphError UUID :=
  orFail ((mapping.find? (·.1 = id)).map (·.2)) .keyError

def cloneNode (target : KnowledgeGraphVersion) (acc : Db × IdMapping)
    (source : KnowledgeGraphNode) : Except KnowledgeGraphError (Db × IdMapping) := do
  let (db, clone) ← addNode acc.1
    { source with organizationId := target.organizationId, graphVersionId := target.id }
  return (db, acc.2 ++ [(source.id, clone.id)])

def cloneEdge (target : KnowledgeGraphVersion) (nodeMapping : IdMapping) (acc : Db × IdMapping)
    (source : KnowledgeGraphEdge) : Except KnowledgeGraphError (Db × IdMapping) := do
  let fromNodeId ← nodeMapping.get source.fromNodeId
  let toNodeId ← nodeMapping.get source.toNodeId
  let (db, clone) ← addEdge acc.1
    { source with
      organizationId := target.organizationId, graphVersionId := target.id, fromNodeId, toNodeId }
  return (db, acc.2 ++ [(source.id, clone.id)])

def cloneEvidence (target : KnowledgeGraphVersion) (edgeMapping : IdMapping) (db : Db)
    (source : KnowledgeGraphEdgeEvidence) : Except KnowledgeGraphError Db := do
  let edgeId ← edgeMapping.get source.edgeId
  addEvidence db
    { source with organizationId := target.organizationId, graphVersionId := target.id, edgeId }

/-- The rows of a version. -/
def nodesOf (db : Db) (version : KnowledgeGraphVersion) : List KnowledgeGraphNode :=
  db.nodes.filter (·.In version.organizationId version.id)

def edgesOf (db : Db) (version : KnowledgeGraphVersion) : List KnowledgeGraphEdge :=
  db.edges.filter (·.In version.organizationId version.id)

def evidenceOf (db : Db) (version : KnowledgeGraphVersion) : List KnowledgeGraphEdgeEvidence :=
  db.evidence.filter (·.In version.organizationId version.id)

/-- `_clone_active_snapshot`, with the number of nodes and edges cloned. -/
def cloneActiveSnapshot (db : Db) (previous : Option KnowledgeGraphVersion)
    (target : KnowledgeGraphVersion) : Except KnowledgeGraphError (Db × ℕ × ℕ) :=
  match previous with
  | none => .ok (db, 0, 0)
  | some previous => do
    let sourceNodes := nodesOf db previous
    let (db, nodeMapping) ← sourceNodes.foldlM (cloneNode target) (db, [])
    let sourceEdges := edgesOf db previous
    let (db, edgeMapping) ← sourceEdges.foldlM (cloneEdge target nodeMapping) (db, [])
    let db ← (evidenceOf db previous).foldlM (cloneEvidence target edgeMapping) db
    return (db, sourceNodes.length, sourceEdges.length)

/-! ## Adding the finding -/

def findNode (db : Db) (version : KnowledgeGraphVersion) (registry : SourceRegistry)
    (objectId : UUID) : Option KnowledgeGraphNode :=
  db.nodes.find? fun n => n.In version.organizationId version.id ∧
    n.sourceRegistry = registry ∧ n.sourceObjectId = objectId

/-- What a projection writes to the node that its finding already has. -/
def Finding.label (finding : Finding) (fingerprint : String) (node : KnowledgeGraphNode) :
    KnowledgeGraphNode :=
  { node with
    stableCode := finding.findingCode
    displayLabel := finding.title
    referenceFingerprint := fingerprint
    metadata := [("domain", finding.domain), ("severity", finding.severity)] }

def Finding.newNode (env : Env) (version : KnowledgeGraphVersion) (finding : Finding)
    (fingerprint : String) : KnowledgeGraphNode where
  id := 0
  organizationId := version.organizationId
  graphVersionId := version.id
  entityTypeVersionId := env.findingType
  sourceRegistry := .findings
  sourceObjectId := finding.id
  sourceVersionId := none
  stableCode := finding.findingCode
  displayLabel := finding.title
  referenceFingerprint := fingerprint
  metadata := [("domain", finding.domain), ("severity", finding.severity)]

def OperationalSignatureExecution.newNode (env : Env) (version : KnowledgeGraphVersion)
    (execution : OperationalSignatureExecution) : KnowledgeGraphNode where
  id := 0
  organizationId := version.organizationId
  graphVersionId := version.id
  entityTypeVersionId := env.signatureExecutionType
  sourceRegistry := .operationalSignatureExecutions
  sourceObjectId := execution.id
  sourceVersionId := some execution.signatureVersionId
  stableCode := none
  displayLabel := "Operational signature execution"
  referenceFingerprint := env.executionFingerprint execution.id execution.status
  metadata := []

/-- The node of the finding, and the number of nodes. -/
def projectNode (env : Env) (db : Db) (version : KnowledgeGraphVersion) (finding : Finding)
    (fingerprint : String) (nodeCount : ℕ) :
    Except KnowledgeGraphError (Db × KnowledgeGraphNode × ℕ) :=
  match findNode db version .findings finding.id with
  | none => do
    let (db, node) ← addNode db (finding.newNode env version fingerprint)
    return (db, node, nodeCount + 1)
  | some node =>
    return ({ db with
      nodes := update (·.id = node.id) (finding.label fingerprint) db.nodes },
      finding.label fingerprint node, nodeCount)

/-- The node of the execution, and the number of nodes. -/
def projectExecution (env : Env) (db : Db) (version : KnowledgeGraphVersion)
    (execution : OperationalSignatureExecution) (nodeCount : ℕ) :
    Except KnowledgeGraphError (Db × KnowledgeGraphNode × ℕ) :=
  match findNode db version .operationalSignatureExecutions execution.id with
  | none => do
    let (db, node) ← addNode db (execution.newNode env version)
    return (db, node, nodeCount + 1)
  | some node => return (db, node, nodeCount)

/-- The edge from an execution to a finding that were not joined before. -/
def newEdge (env : Env) (version : KnowledgeGraphVersion) (finding : Finding)
    (fingerprint : String) (executionNode findingNode : KnowledgeGraphNode) (actor : UUID) :
    KnowledgeGraphEdge where
  id := 0
  organizationId := version.organizationId
  graphVersionId := version.id
  relationshipTypeVersionId := env.producedFinding
  fromNodeId := executionNode.id
  toNodeId := findingNode.id
  derivationFingerprint := fingerprint
  confidenceScore := finding.confidenceScore
  confidenceMethod := finding.confidenceMethodCode.getD "source_finding"
  observedAt := finding.lastDetectedAt
  contentFingerprint := env.edgeFingerprint executionNode.id findingNode.id
  createdByUserId := actor

def newEvidence (version : KnowledgeGraphVersion) (finding : Finding)
    (execution : OperationalSignatureExecution) (edgeId : UUID) : KnowledgeGraphEdgeEvidence where
  organizationId := version.organizationId
  graphVersionId := version.id
  edgeId
  sourceObjectId := execution.id
  integrityFingerprint := execution.inputFingerprint
  observedAt := execution.completedAt.getD execution.startedAt
  findingId := finding.id

/-- The edge from the execution to the finding with its evidence, and the number of edges. -/
def projectEdge (env : Env) (db : Db) (version : KnowledgeGraphVersion) (finding : Finding)
    (fingerprint : String) (execution : OperationalSignatureExecution)
    (executionNode findingNode : KnowledgeGraphNode) (actor : UUID) (edgeCount : ℕ) :
    Except KnowledgeGraphError (Db × ℕ) :=
  match db.edges.find? fun e => e.In version.organizationId version.id ∧
      e.relationshipTypeVersionId = env.producedFinding ∧
      e.fromNodeId = executionNode.id ∧ e.toNodeId = findingNode.id with
  | none => do
    let (db, edge) ← addEdge db
      (newEdge env version finding fingerprint executionNode findingNode actor)
    let db ← addEvidence db (newEvidence version finding execution edge.id)
    return (db, edgeCount + 1)
  | some _ => return (db, edgeCount)

/-- The execution that produced the finding, its edge, and the numbers of nodes and edges. -/
def projectProducer (env : Env) (context : Context) (db : Db) (version : KnowledgeGraphVersion)
    (finding : Finding) (fingerprint : String) (findingNode : KnowledgeGraphNode) (actor : UUID)
    (nodeCount edgeCount : ℕ) : Except KnowledgeGraphError (Db × ℕ × ℕ) :=
  match finding.signatureExecutionId with
  | none => .ok (db, nodeCount, edgeCount)
  | some executionId => do
    let execution ← orFail (context.executions.find? fun x =>
        x.id = executionId ∧ x.organizationId = version.organizationId)
      (.service "INVALID_SOURCE_REFERENCE"
        "Finding signature execution does not belong to the organization" 409)
    let (db, executionNode, nodeCount) ← projectExecution env db version execution nodeCount
    let (db, edgeCount) ← projectEdge env db version finding fingerprint execution executionNode
      findingNode actor edgeCount
    return (db, nodeCount, edgeCount)

/-! ## Publishing -/

def adapterCode : String := "finding_evidence"

/-- The number of the next version of the organization. -/
def nextVersion (db : Db) (org : UUID) : ℕ :=
  ((db.versions.filter (·.organizationId = org)).map (·.version)).max?.getD 0 + 1

def activeVersion (db : Db) (org : UUID) : Option KnowledgeGraphVersion :=
  db.versions.find? fun v => v.organizationId = org ∧ v.status = .active

/-- A new version, still being built. -/
def newVersion (db : Db) (org actor : UUID) : KnowledgeGraphVersion where
  id := db.nextId
  organizationId := org
  version := nextVersion db org
  status := .building
  createdByUserId := actor

def addVersion (db : Db) (org actor : UUID) :
    Except KnowledgeGraphError (Db × KnowledgeGraphVersion) := do
  let versions ← orFail (insert (fun v w => v.organizationId = w.organizationId ∧
    v.version = w.version) (newVersion db org actor) db.versions)
    (.integrity "uq_kg_version_org_number")
  return ({ db with versions, nextId := db.nextId + 1 }, newVersion db org actor)

/-- What publishing writes to the new version. -/
def KnowledgeGraphVersion.published (finding : Finding) (nodeCount edgeCount : ℕ) (now : Instant)
    (v : KnowledgeGraphVersion) : KnowledgeGraphVersion :=
  { v with
    nodeCount, edgeCount, status := .active, publishedAt := some now
    evidenceComplete := some (edgeCount = 0 ∨ finding.signatureExecutionId.isSome) }

/-- What publishing another version writes to the active one. -/
def KnowledgeGraphVersion.replaced (v : KnowledgeGraphVersion) : KnowledgeGraphVersion :=
  { v with status := .superseded }

def publishedVersions (versions : List KnowledgeGraphVersion)
    (previous : Option KnowledgeGraphVersion) (version : KnowledgeGraphVersion)
    (finding : Finding) (nodeCount edgeCount : ℕ) (now : Instant) : List KnowledgeGraphVersion :=
  let published := update (·.id = version.id) (.published finding nodeCount edgeCount now) versions
  match previous with
  | none => published
  | some previous => update (·.id = previous.id) .replaced published

/-- The checkpoint of the organization's adapter, moved to the projected event. -/
def checkpointed (db : Db) (org : UUID) (payload : FindingProjectionCreate) (fingerprint : String)
    (versionId : UUID) : List KnowledgeGraphProjectionCheckpoint :=
  if db.checkpoints.any fun c => c.organizationId = org ∧ c.adapterCode = adapterCode then
    update (fun c => c.organizationId = org ∧ c.adapterCode = adapterCode)
      (fun c => { c with
        sourceCursor := payload.sourceEventId, sourceFingerprint := fingerprint
        graphVersionId := versionId })
      db.checkpoints
  else
    db.checkpoints ++ [⟨org, adapterCode, payload.sourceEventId, fingerprint, versionId⟩]

/-- The identifier of an added row, which is assigned when the row is flushed. No statement flushes
it before it is metered, unless the lookup of the checkpoint does. -/
def pendingId (autoflush : Bool) (drawn : UUID) : Option UUID :=
  if autoflush then some drawn else none

/-- `uq_usage_event_key`. -/
def SameUsage (a b : UsageEvent) : Prop :=
  a.organizationId = b.organizationId ∧ a.sourceId = b.sourceId ∧ a.meterCode = b.meterCode

instance : DecidableRel SameUsage := fun _ _ => inferInstanceAs (Decidable (_ ∧ _))

/-- `_meter`. -/
def meter (events : List UsageEvent) (org : UUID) (code : MeterCode) (quantity : ℕ)
    (sourceId : Option UUID) : Except KnowledgeGraphError (List UsageEvent) :=
  if quantity = 0 then .ok events
  else
    orFail (insert SameUsage ⟨org, code, sourceId, quantity⟩ events)
      (.integrity "uq_usage_event_key")

def newChange (db : Db) (org : UUID) (payload : FindingProjectionCreate)
    (version : KnowledgeGraphVersion) (fingerprint : String) (findingNode : KnowledgeGraphNode)
    (nodeCount edgeCount : ℕ) : KnowledgeGraphChange where
  id := db.nextId
  organizationId := org
  graphVersionId := version.id
  adapterCode := adapterCode
  sourceEventId := payload.sourceEventId
  sourceFingerprint := fingerprint
  idempotencyKey := payload.idempotencyKey
  nodeCount
  edgeCount
  findingNodeId := findingNode.id

/-- `uq_kg_change_key` and `uq_kg_change_source_event`. -/
def SameChange (a b : KnowledgeGraphChange) : Prop :=
  a.organizationId = b.organizationId ∧ (a.idempotencyKey = b.idempotencyKey ∨
    a.adapterCode = b.adapterCode ∧ a.sourceEventId = b.sourceEventId)

instance : DecidableRel SameChange := fun _ _ => inferInstanceAs (Decidable (_ ∧ _))

/-- Both meters of a projection. -/
def meters (events : List UsageEvent) (org : UUID) (nodeCount edgeCount : ℕ)
    (sourceId : Option UUID) : Except KnowledgeGraphError (List UsageEvent) := do
  let events ← meter events org .graphNodesMaterialized nodeCount sourceId
  meter events org .graphEdgesMaterialized edgeCount sourceId

/-- Publish the version, and write the change, the checkpoint and the meters. -/
def publish (autoflush : Bool) (db : Db) (org : UUID) (payload : FindingProjectionCreate)
    (now : Instant) (previous : Option KnowledgeGraphVersion) (version : KnowledgeGraphVersion)
    (finding : Finding) (fingerprint : String) (findingNode : KnowledgeGraphNode)
    (nodeCount edgeCount : ℕ) : Except KnowledgeGraphError (Db × KnowledgeGraphChange) := do
  let change := newChange db org payload version fingerprint findingNode nodeCount edgeCount
  let changes ← orFail (insert SameChange change db.changes) (.integrity "uq_kg_change")
  let usageEvents ← meters db.usageEvents org nodeCount edgeCount (pendingId autoflush change.id)
  return ({ db with
    versions := publishedVersions db.versions previous version finding nodeCount edgeCount now
    checkpoints := checkpointed db org payload fingerprint version.id
    changes, usageEvents, nextId := db.nextId + 1 }, change)

/-! ## Projecting -/

/-- `_require_entitlement`. -/
def Entitled (context : Context) (org : UUID) (now : Instant) : Prop :=
  ∃ e ∈ context.entitlements, e.organizationId = org ∧
    e.entitlementKey = "intelligence.enterprise_knowledge_graph" ∧ e.enabled = true ∧
    e.effectiveAt ≤ now ∧ ∀ t ∈ e.expiresAt, now < t

instance (context : Context) (org : UUID) (now : Instant) : Decidable (Entitled context org now) :=
  inferInstanceAs (Decidable (∃ _ ∈ _, _))

/-- The finding of the organization that a request names. -/
def findFinding (context : Context) (org findingId : UUID) : Option Finding :=
  context.findings.find? fun f => f.id = findingId ∧ f.organizationId = org

def Finding.content (finding : Finding) : FindingContent where
  findingId := finding.id
  status := finding.status
  signatureExecutionId := finding.signatureExecutionId
  lastDetectedAt := finding.lastDetectedAt

/-- The change that was projected under the key of a request. -/
def changeOfKey (db : Db) (org : UUID) (key : String) : Option KnowledgeGraphChange :=
  db.changes.find? fun c => c.organizationId = org ∧ c.idempotencyKey = key

/-- The change that was projected for the event of a request. -/
def changeOfEvent (db : Db) (org : UUID) (event : String) : Option KnowledgeGraphChange :=
  db.changes.find? fun c =>
    c.organizationId = org ∧ c.adapterCode = adapterCode ∧ c.sourceEventId = event

/-- What was projected for this request before, if anything. -/
def priorChange (db : Db) (org : UUID) (payload : FindingProjectionCreate) (fingerprint : String) :
    Except KnowledgeGraphError (Option KnowledgeGraphChange) :=
  match changeOfKey db org payload.idempotencyKey with
  | some prior => do
    ensure (prior.sourceEventId = payload.sourceEventId ∧ prior.sourceFingerprint = fingerprint)
      (.service "IDEMPOTENCY_CONFLICT"
        "Idempotency key was already used for a different projection" 409)
    return some prior
  | none =>
    match changeOfEvent db org payload.sourceEventId with
    | some prior => do
      ensure (prior.sourceFingerprint = fingerprint)
        (.service "SOURCE_EVENT_CONFLICT"
          "Source event was already projected with different content" 409)
      return some prior
    | none => return none

/-- Project a finding that was not projected under this key or event. -/
def projectNew (autoflush : Bool) (env : Env) (context : Context) (db : Db) (org : UUID)
    (payload : FindingProjectionCreate) (finding : Finding) (fingerprint : String) (actor : UUID)
    (now : Instant) : Except KnowledgeGraphError (Db × KnowledgeGraphChange) := do
  let previous := activeVersion db org
  let (db, version) ← addVersion db org actor
  let (db, nodeCount, edgeCount) ← cloneActiveSnapshot db previous version
  let (db, findingNode, nodeCount) ← projectNode env db version finding fingerprint nodeCount
  let (db, nodeCount, edgeCount) ← projectProducer env context db version finding fingerprint
    findingNode actor nodeCount edgeCount
  publish autoflush db org payload now previous version finding fingerprint findingNode nodeCount
    edgeCount

/-- `project_finding`, in a session with or without autoflush. -/
def projectFinding (autoflush : Bool) (env : Env) (context : Context) (db : Db) (org : UUID)
    (payload : FindingProjectionCreate) (actor : UUID) (now : Instant) :
    Except KnowledgeGraphError (Db × KnowledgeGraphChange) := do
  ensure (Entitled context org now) (.service "KNOWLEDGE_GRAPH_NOT_ENTITLED"
    "Enterprise Knowledge Graph entitlement is required" 403)
  let finding ← orFail (findFinding context org payload.findingId)
    (.service "FINDING_NOT_FOUND" "Finding not found" 404)
  let fingerprint := env.sourceFingerprint finding.content
  match ← priorChange db org payload fingerprint with
  | some prior => return (db, prior)
  | none => projectNew autoflush env context db org payload finding fingerprint actor now

/-! ## Requests -/

/-- A request, with the time it is served and what the other tables then hold. -/
structure Call where
  (organizationId actor : UUID)
  now : Instant
  payload : FindingProjectionCreate
  context : Context

/-- Serve one request in a session of its own. -/
def serveIn (autoflush : Bool) (env : Env) : Service Db Call KnowledgeGraphChange
    KnowledgeGraphError := fun db call =>
  projectFinding autoflush env call.context db call.organizationId call.payload call.actor call.now

/-- `SessionLocal` opens its sessions without autoflush. -/
def sessionAutoflush : Bool := false

def serve (env : Env) : Service Db Call KnowledgeGraphChange KnowledgeGraphError :=
  serveIn sessionAutoflush env

end Intel4Ops.KnowledgeGraph

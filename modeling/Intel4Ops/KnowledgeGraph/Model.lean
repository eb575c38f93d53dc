import Intel4Ops.Lib.Except
import Intel4Ops.Lib.Ident
import Intel4Ops.Lib.Service
import Intel4Ops.Lib.Table
import Mathlib.Algebra.Order.Ring.Rat

/-!
# Enterprise knowledge graph: data model

The graph versions, nodes, edges, evidence rows, changes and checkpoints of
`app/models/knowledge_graph.py`, and the usage events that a projection meters. Identifiers are
drawn from a supply in the tables. Columns that a projection fills with a constant are left out, and
so are retention and validity dates.
-/

namespace Intel4Ops.KnowledgeGraph

open Lib

/-! ## What a projection reads -/

/-- A decimal that the check constraints keep between zero and one. -/
structure UnitScore where
  value : ℚ
  nonneg : 0 ≤ value
  le_one : value ≤ 1
  deriving DecidableEq

structure Finding where
  (id organizationId : UUID)
  status : String
  signatureExecutionId : Option UUID
  lastDetectedAt : Instant
  findingCode : Option String
  (title domain severity : String)
  confidenceScore : UnitScore
  confidenceMethodCode : Option String
  deriving DecidableEq

structure OperationalSignatureExecution where
  (id organizationId signatureVersionId : UUID)
  (status inputFingerprint : String)
  startedAt : Instant
  completedAt : Option Instant

structure Entitlement where
  organizationId : UUID
  entitlementKey : String
  enabled : Bool
  effectiveAt : Instant
  expiresAt : Option Instant

/-- What the other tables hold while a request is served. -/
structure Context where
  findings : List Finding
  executions : List OperationalSignatureExecution
  entitlements : List Entitlement

/-! ## Rows -/

inductive GraphVersionStatus
  | building | validating | active | superseded | failed | retired
  deriving DecidableEq

/-- The source registries from which a finding is projected. -/
inductive SourceRegistry
  | findings | operationalSignatureExecutions
  deriving DecidableEq

structure KnowledgeGraphVersion where
  (id organizationId : UUID)
  version : ℕ
  status : GraphVersionStatus
  nodeCount : ℕ := 0
  edgeCount : ℕ := 0
  evidenceComplete : Option Bool := none
  createdByUserId : UUID
  publishedAt : Option Instant := none
  deriving DecidableEq

/-- A node; the version key of its source is the text of `sourceVersionId`. -/
structure KnowledgeGraphNode where
  (id organizationId graphVersionId entityTypeVersionId : UUID)
  sourceRegistry : SourceRegistry
  sourceObjectId : UUID
  sourceVersionId : Option UUID
  stableCode : Option String
  (displayLabel referenceFingerprint : String)
  metadata : List (String × String)
  deriving DecidableEq

structure KnowledgeGraphEdge where
  (id organizationId graphVersionId relationshipTypeVersionId fromNodeId toNodeId : UUID)
  derivationFingerprint : String
  confidenceScore : UnitScore
  confidenceMethod : String
  observedAt : Instant
  contentFingerprint : String
  createdByUserId : UUID
  deriving DecidableEq

structure KnowledgeGraphEdgeEvidence where
  (organizationId graphVersionId edgeId sourceObjectId : UUID)
  integrityFingerprint : String
  observedAt : Instant
  findingId : UUID
  deriving DecidableEq

structure KnowledgeGraphChange where
  (id organizationId graphVersionId : UUID)
  (adapterCode sourceEventId sourceFingerprint idempotencyKey : String)
  (nodeCount edgeCount : ℕ)
  findingNodeId : UUID
  deriving DecidableEq

structure KnowledgeGraphProjectionCheckpoint where
  organizationId : UUID
  (adapterCode sourceCursor sourceFingerprint : String)
  graphVersionId : UUID
  deriving DecidableEq

inductive MeterCode
  | graphNodesMaterialized | graphEdgesMaterialized
  deriving DecidableEq

/-- A metered quantity. Its idempotency key is `knowledge-graph:{source_id}:{code}`, in which an
identifier that is not assigned yet reads `None`. -/
structure UsageEvent where
  organizationId : UUID
  meterCode : MeterCode
  sourceId : Option UUID
  quantity : ℕ
  deriving DecidableEq

structure Db where
  versions : List KnowledgeGraphVersion := []
  nodes : List KnowledgeGraphNode := []
  edges : List KnowledgeGraphEdge := []
  evidence : List KnowledgeGraphEdgeEvidence := []
  changes : List KnowledgeGraphChange := []
  checkpoints : List KnowledgeGraphProjectionCheckpoint := []
  usageEvents : List UsageEvent := []
  nextId : UUID := 0
  deriving DecidableEq

/-! ## Payloads and surroundings -/

structure FindingProjectionCreate where
  idempotencyKey : String
  findingId : UUID
  sourceEventId : String

/-- What the fingerprint of a finding is made of. -/
structure FindingContent where
  findingId : UUID
  status : String
  signatureExecutionId : Option UUID
  lastDetectedAt : Instant

/-- `graph_id` for the types that a projection uses, and the digests. -/
structure Env where
  (findingType signatureExecutionType producedFinding : UUID)
  sourceFingerprint : FindingContent → String
  executionFingerprint : UUID → String → String
  edgeFingerprint : UUID → UUID → String

inductive KnowledgeGraphError
  | service (code message : String) (status : ℕ)
  | keyError
  | integrity (constraint : String)
  deriving DecidableEq

end Intel4Ops.KnowledgeGraph

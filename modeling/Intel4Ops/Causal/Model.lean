import Intel4Ops.Lib.Decimal
import Intel4Ops.Lib.Except
import Intel4Ops.Lib.Ident
import Intel4Ops.Lib.Service
import Intel4Ops.Lib.Table

/-!
# Causal intelligence: data model

The hypotheses, evidence links, reviews and edges of `app/models/causal_intelligence.py`, with the
columns that evaluation, review and the graph read or write. Texts that only explain, roles,
categories and validity are left out, and so are the audit events.
-/

namespace Intel4Ops.Causal

open Lib Lib.Decimal

/-! ## Statuses and types -/

inductive CausalHypothesisStatus
  | draft | proposed | evidencePending | underReview | probable | confirmed | rejected | superseded
  | revoked | archived
  deriving DecidableEq

/-- `CAUSAL_HYPOTHESIS_TERMINAL_STATUSES`. -/
def terminalStatuses : List CausalHypothesisStatus :=
  [.confirmed, .rejected, .superseded, .revoked, .archived]

/-- `CAUSAL_HYPOTHESIS_EVIDENCE_IMMUTABLE_STATUSES`. -/
def evidenceImmutableStatuses : List CausalHypothesisStatus := .probable :: terminalStatuses

/-- `CAUSAL_HYPOTHESIS_ALLOWED_TERMINAL_TRANSITIONS`. -/
def allowedTerminalTransitions : List (CausalHypothesisStatus × CausalHypothesisStatus) :=
  [(.confirmed, .superseded), (.confirmed, .revoked), (.confirmed, .archived),
    (.rejected, .archived), (.superseded, .archived), (.revoked, .archived)]

inductive CausalEdgeType
  | causes | contributesTo | precedes | amplifies | mitigates | prevents | correlatesWith
  | associatedWith | inferredFrom | confirmedBy | contradicts | supersedes
  deriving DecidableEq

/-- `ASSOCIATION_ONLY_EDGE_TYPES`. -/
def associationOnlyEdgeTypes : List CausalEdgeType := [.correlatesWith, .associatedWith]

/-- `NON_OVERLAP_EDGE_TYPES`. -/
def nonOverlapEdgeTypes : List CausalEdgeType := [.causes, .precedes]

inductive CausalEvidenceKind
  | findingEvidence | calculationTrace | ruleTrace | canonicalRecord | lineageNode | lineageEdge
  | lineageEvent | sourceCanonicalLink
  deriving DecidableEq

inductive CausalHardGateOutcome
  | passed | blocked
  deriving DecidableEq

inductive CausalReviewDecision
  | confirm | probable | reject | defer | revoke
  deriving DecidableEq

inductive CausalOutcomeEffect
  | strengthened | weakened | confirmed | refuted | inconclusive
  deriving DecidableEq

/-! ## What an evaluation reads -/

/-- A value between zero and one in a `Numeric(5, 4)` column. -/
structure Score where
  value : ℚ
  stored : numeric 5 4 value = some value
  nonneg : 0 ≤ value
  le_one : value ≤ 1

structure CausalMethodDefinition where
  id : UUID
  (methodCode methodVersion : String)
  defaultConfidenceWeight : Score

/-- The mapping of a canonical record or of its link to a source. -/
structure Mapping where
  mappingStatus : String
  mappingConfidenceScore : Option Score

/-- A canonical event or metric. -/
structure CanonicalRecord extends Mapping where
  (occurrenceStart occurrenceEnd : Option Instant)
  occurrencePrecision : Option String

inductive CausalNodeTarget
  | canonicalEvent (id : UUID)
  | canonicalMetric (id : UUID)
  | other

structure CausalNode where
  (id organizationId : UUID)
  target : CausalNodeTarget

/-- An intervention on an edge, or on a node. -/
structure CausalIntervention where
  (id organizationId : UUID)
  targetedEdgeId : Option UUID

/-- What the other tables hold while a request is served. -/
structure Context where
  (canonicalEvents canonicalMetrics : UUID → Option CanonicalRecord)
  sourceCanonicalLinks : UUID → Option Mapping
  nodes : List CausalNode
  interventions : List CausalIntervention
  readinessBlocked : Bool

/-- A reason for which the hard gates block, with the data of its message. -/
inductive GateReason
  | missingRequiredEvidence
  | blockingMappingStatus (mappingStatus : String)
  | insufficientMappingConfidence (minimum : ℚ)
  | temporalPrecedenceViolation
  | insufficientTemporalPrecision (precision : String) (lag : ℤ)
  | readinessBlocked
  deriving DecidableEq

/-! ## Rows -/

structure CausalHypothesis where
  (id organizationId sourceNodeId targetNodeId : UUID)
  proposedEdgeType : CausalEdgeType
  methodId : UUID
  lifecycleStatus : CausalHypothesisStatus
  temporalLagSeconds : Option ℤ
  evaluatedTemporalPrecision : Option String := none
  hardGateOutcome : Option CausalHardGateOutcome := none
  hardGateFailureReasons : List GateReason := []
  contentHash : String
  supersededByHypothesisId : Option UUID := none
  causalEvaluationTime : Option Instant := none
  confidenceScore : Option ℚ := none
  methodCode : Option String := none
  methodVersion : Option String := none
  minimumSupportingMappingConfidence : Option ℚ := none
  evidenceCount : ℕ := 0
  contradictionCount : ℕ := 0
  createdByUserId : UUID
  deriving DecidableEq

structure CausalEvidenceLink where
  (id organizationId hypothesisId : UUID)
  evidenceKind : CausalEvidenceKind
  evidenceId : UUID
  supports : Bool
  updatedAt : Instant

structure CausalReview where
  (organizationId hypothesisId : UUID)
  decision : CausalReviewDecision
  reviewerUserId : UUID
  (priorLifecycleStatus resultingLifecycleStatus : CausalHypothesisStatus)

structure CausalEdge where
  (id organizationId sourceNodeId targetNodeId : UUID)
  edgeType : CausalEdgeType
  hypothesisId : UUID
  confidenceScore : Option ℚ
  (evidenceCount contradictionCount : ℕ)
  deriving DecidableEq

structure CausalOutcomeAssessment where
  (organizationId interventionId : UUID)
  hypothesisEffect : CausalOutcomeEffect
  assessedByUserId : UUID

structure Db where
  hypotheses : List CausalHypothesis := []
  links : List CausalEvidenceLink := []
  reviews : List CausalReview := []
  edges : List CausalEdge := []
  assessments : List CausalOutcomeAssessment := []

/-! ## Payloads and surroundings -/

structure CausalHypothesisCreate where
  (sourceNodeId targetNodeId : UUID)
  proposedEdgeType : CausalEdgeType
  methodId : UUID
  temporalLagSeconds : Option ℤ := none

structure CausalEvidenceLinkCreate where
  evidenceKind : CausalEvidenceKind
  evidenceId : UUID
  supports : Bool := true

/-- What the content hash of a hypothesis is made of; a revision adds the hypothesis it revises. -/
structure HashedContent where
  (sourceNodeId targetNodeId : UUID)
  proposedEdgeType : CausalEdgeType
  methodId : UUID
  revisionOf : Option (UUID × CausalOutcomeEffect) := none

/-- The method definitions, which nothing changes, and the digest of a hypothesis. -/
structure Env where
  methods : UUID → Option CausalMethodDefinition
  contentHash : HashedContent → String

inductive CausalError
  | service (code message : String) (status : ℕ)
  | immutable (message : String)
  | integrity (constraint : String)
  | dataError (column : String)
  deriving DecidableEq

/-- `_fail`. -/
def fail (code message : String) (status : ℕ := 422) : CausalError := .service code message status

end Intel4Ops.Causal

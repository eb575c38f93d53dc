import Intel4Ops.Causal.Evaluation

/-!
# Causal intelligence: the service

`CausalHypothesisService`, `CausalEvidenceService`, `CausalEvaluationService`,
`CausalReviewService` and `CausalOutcomeAssessmentService` of
`app/services/causal_intelligence_service.py`, with the listeners of the model that guard and
rewrite the rows.
-/

namespace Intel4Ops.Causal

open Lib Lib.Decimal Table

/-! ## Hypotheses -/

/-- The content that identifies a hypothesis of an organization. -/
def CausalHypothesisCreate.content (payload : CausalHypothesisCreate) : HashedContent where
  sourceNodeId := payload.sourceNodeId
  targetNodeId := payload.targetNodeId
  proposedEdgeType := payload.proposedEdgeType
  methodId := payload.methodId

/-- A new hypothesis has an identifier and a content of its own. -/
def insertHypothesis (db : Db) (hypothesis : CausalHypothesis) :
    Except CausalError (List CausalHypothesis) :=
  orFail (insert (fun a b => a.id = b.id ∨ a.organizationId = b.organizationId ∧
      a.contentHash = b.contentHash) hypothesis db.hypotheses)
    (.integrity "uq_causal_hypothesis_content_hash")

/-- `CausalHypothesisService.create`. -/
def create (env : Env) (context : Context) (db : Db) (org : UUID)
    (payload : CausalHypothesisCreate) (actor id : UUID) :
    Except CausalError (Db × CausalHypothesis) := do
  ensure (payload.sourceNodeId ≠ payload.targetNodeId)
    (fail "self_referential_node" "a causal hypothesis cannot target its own source node")
  let contentHash := env.contentHash payload.content
  match db.hypotheses.find? fun h => h.organizationId = org ∧ h.contentHash = contentHash with
  | some existing => return (db, existing)
  | none =>
    ensure ((∃ n ∈ context.nodes, n.id = payload.sourceNodeId ∧ n.organizationId = org) ∧
        (∃ n ∈ context.nodes, n.id = payload.targetNodeId ∧ n.organizationId = org) ∧
        (env.methods payload.methodId).isSome)
      (.integrity "fk_causal_hypotheses")
    let hypothesis : CausalHypothesis :=
      { id, organizationId := org, sourceNodeId := payload.sourceNodeId
        targetNodeId := payload.targetNodeId, proposedEdgeType := payload.proposedEdgeType
        methodId := payload.methodId, lifecycleStatus := .draft
        temporalLagSeconds := payload.temporalLagSeconds, contentHash, createdByUserId := actor }
    let hypotheses ← insertHypothesis db hypothesis
    return ({ db with hypotheses }, hypothesis)

def getHypothesis (db : Db) (org hypothesisId : UUID) : Except CausalError CausalHypothesis :=
  orFail (db.hypotheses.find? fun h => h.id = hypothesisId ∧ h.organizationId = org)
    (fail "hypothesis_not_found" "causal hypothesis not found" 404)

/-- `_guard_terminal_hypothesis`: of a terminal hypothesis only the status and the pointer to a
revision change, and the status only along the allowed transitions. -/
def guardTerminal (old new : CausalHypothesis) : Except CausalError Unit :=
  ensure (old.lifecycleStatus ∈ terminalStatuses →
      new = { old with
        lifecycleStatus := new.lifecycleStatus
        supersededByHypothesisId := new.supersededByHypothesisId } ∧
      (new.lifecycleStatus = old.lifecycleStatus ∨
        (old.lifecycleStatus, new.lifecycleStatus) ∈ allowedTerminalTransitions))
    (.immutable "terminal causal hypotheses are immutable")

/-- Write a changed hypothesis back. -/
def writeHypothesis (db : Db) (old new : CausalHypothesis) :
    Except CausalError (List CausalHypothesis) := do
  guardTerminal old new
  return update (·.id = old.id) (fun _ => new) db.hypotheses

/-- `CausalHypothesisService.propose`. -/
def propose (db : Db) (org hypothesisId : UUID) : Except CausalError (Db × CausalHypothesis) := do
  let hypothesis ← getHypothesis db org hypothesisId
  ensure (hypothesis.lifecycleStatus = .draft)
    (fail "invalid_transition" "only draft hypotheses can be proposed")
  let proposed := { hypothesis with lifecycleStatus := .proposed }
  let hypotheses ← writeHypothesis db hypothesis proposed
  return ({ db with hypotheses }, proposed)

/-! ## Evidence -/

def linksOf (db : Db) (hypothesisId : UUID) : List CausalEvidenceLink :=
  db.links.filter (·.hypothesisId = hypothesisId)

/-- `_recount`. -/
def CausalHypothesis.recounted (links : List CausalEvidenceLink) (h : CausalHypothesis) :
    CausalHypothesis :=
  { h with
    evidenceCount := links.countP (·.supports)
    contradictionCount := links.countP (!·.supports) }

/-- `_invalidate_evaluation_after_evidence_change`. -/
def CausalHypothesis.invalidated (h : CausalHypothesis) : CausalHypothesis :=
  { h with
    lifecycleStatus := .evidencePending, evaluatedTemporalPrecision := none
    hardGateOutcome := none, hardGateFailureReasons := [], causalEvaluationTime := none
    confidenceScore := none, methodCode := none, methodVersion := none
    minimumSupportingMappingConfidence := none }

def CausalHypothesis.attached (links : List CausalEvidenceLink) (h : CausalHypothesis) :
    CausalHypothesis :=
  match h.lifecycleStatus with
  | .underReview => (h.recounted links).invalidated
  | .draft | .proposed => { h.recounted links with lifecycleStatus := .evidencePending }
  | _ => h.recounted links

/-- `CausalEvidenceService.attach`. -/
def attach (db : Db) (org hypothesisId : UUID) (payload : CausalEvidenceLinkCreate) (id : UUID)
    (now : Instant) : Except CausalError (Db × CausalEvidenceLink) := do
  let hypothesis ← getHypothesis db org hypothesisId
  ensure (hypothesis.lifecycleStatus ∉ evidenceImmutableStatuses)
    (fail "hypothesis_evidence_immutable"
      "evidence cannot change after a hypothesis reaches an immutable evidence state")
  let link : CausalEvidenceLink :=
    { id, organizationId := org, hypothesisId, evidenceKind := payload.evidenceKind
      evidenceId := payload.evidenceId, supports := payload.supports, updatedAt := now }
  let links ← orFail (insert (fun a b => a.id = b.id ∨ a.hypothesisId = b.hypothesisId ∧
      a.evidenceKind = b.evidenceKind ∧ a.evidenceId = b.evidenceId) link db.links)
    (.integrity "uq_causal_evidence_link_identity")
  let hypotheses ← writeHypothesis db hypothesis
    (hypothesis.attached (links.filter (·.hypothesisId = hypothesisId)))
  return ({ db with links, hypotheses }, link)

/-! ## Evaluation -/

/-- What every evaluation writes. -/
def CausalHypothesis.evaluatedAt (context : Context) (links : List CausalEvidenceLink)
    (now : Instant) (h : CausalHypothesis) : CausalHypothesis :=
  { h with
    minimumSupportingMappingConfidence := minimumMappingConfidence context links
    evaluatedTemporalPrecision := evaluatedPrecision context h
    causalEvaluationTime := some now }

/-- What an evaluation writes whose gates block. -/
def CausalHypothesis.blocked (reasons : List GateReason) (h : CausalHypothesis) :
    CausalHypothesis :=
  { h with
    hardGateOutcome := some .blocked, hardGateFailureReasons := reasons
    lifecycleStatus := if h.lifecycleStatus = .underReview then .underReview
      else .evidencePending }

/-- The status after the gates have passed. -/
def statusAfter (edgeType : CausalEdgeType) (confidence : ℚ) : CausalHypothesisStatus :=
  if edgeType ∈ associationOnlyEdgeTypes then .probable
  else if probableConfidenceThreshold ≤ confidence then .underReview
  else .evidencePending

/-- What an evaluation writes whose gates pass. -/
def CausalHypothesis.passed (env : Env) (confidence stored : ℚ) (h : CausalHypothesis) :
    CausalHypothesis :=
  { h with
    hardGateOutcome := some .passed, hardGateFailureReasons := []
    confidenceScore := some stored
    methodCode := (env.methods h.methodId).map (·.methodCode)
    methodVersion := (env.methods h.methodId).map (·.methodVersion)
    lifecycleStatus := statusAfter h.proposedEdgeType confidence }

def supportingLinks (db : Db) (hypothesisId : UUID) : List CausalEvidenceLink :=
  (linksOf db hypothesisId).filter (·.supports)

def evaluatedConfidence (env : Env) (context : Context) (db : Db) (h : CausalHypothesis) : ℚ :=
  confidence (methodWeight env h) (minimumMappingConfidence context (supportingLinks db h.id))
    h.contradictionCount

/-- `CausalEvaluationService.evaluate`. -/
def evaluate (env : Env) (context : Context) (db : Db) (org hypothesisId : UUID) (now : Instant) :
    Except CausalError (Db × CausalHypothesis) := do
  let hypothesis ← getHypothesis db org hypothesisId
  ensure (hypothesis.lifecycleStatus ∉ terminalStatuses)
    (fail "hypothesis_terminal" "cannot evaluate a terminal hypothesis")
  let links := supportingLinks db hypothesis.id
  let reasons := gateReasons context hypothesis links
  if reasons = [] then
    let score := evaluatedConfidence env context db hypothesis
    let stored ← orFail (numeric 5 4 score) (.dataError "confidence_score")
    let evaluated := (hypothesis.evaluatedAt context links now).passed env score stored
    let hypotheses ← writeHypothesis db hypothesis evaluated
    return ({ db with hypotheses }, evaluated)
  else
    let evaluated := (hypothesis.evaluatedAt context links now).blocked reasons
    let hypotheses ← writeHypothesis db hypothesis evaluated
    return ({ db with hypotheses }, evaluated)

/-! ## Review -/

/-- The statuses from which a hypothesis is confirmed, or found probable. -/
def reviewableStatuses (confirm : Bool) : List CausalHypothesisStatus :=
  if confirm then [.underReview, .probable] else [.underReview]

/-- `_require_evaluated_review`. -/
def requireEvaluatedReview (db : Db) (h : CausalHypothesis) (confirm : Bool) :
    Except CausalError Unit := do
  let notEvaluated := fail "hypothesis_not_evaluated"
    "causal approval requires a successfully evaluated hypothesis in an eligible review state"
  ensure (h.lifecycleStatus ∈ reviewableStatuses confirm) notEvaluated
  ensure (∀ t ∈ h.causalEvaluationTime, ∀ link ∈ linksOf db h.id, link.updatedAt ≤ t)
    (fail "hypothesis_evaluation_stale"
      "the evidence set changed after evaluation; re-evaluation is required")
  ensure (confirm = true → h.proposedEdgeType ∉ associationOnlyEdgeTypes)
    (fail "association_cannot_confirm" "association-only edge types cannot reach confirmed status")
  ensure (h.causalEvaluationTime ≠ none ∧ h.hardGateOutcome = some .passed ∧
    0 < h.evidenceCount ∧ h.confidenceScore ≠ none ∧ h.hardGateFailureReasons = []) notEvaluated
  ensure (confirm = true → ∀ score ∈ h.confidenceScore, probableConfidenceThreshold ≤ score)
    (fail "insufficient_causal_confidence"
      "hypothesis confidence is below the minimum confirmation threshold")

def checkDecision (db : Db) (h : CausalHypothesis) : CausalReviewDecision → Except CausalError Unit
  | .revoke => ensure (h.lifecycleStatus = .confirmed)
      (fail "invalid_transition" "only confirmed hypotheses can be revoked")
  | .confirm => requireEvaluatedReview db h true
  | .probable => requireEvaluatedReview db h false
  | .reject | .defer => .ok ()

/-- `_RESULTING_STATUS`; a deferred hypothesis keeps its status. -/
def resultingStatus (prior : CausalHypothesisStatus) : CausalReviewDecision → CausalHypothesisStatus
  | .confirm => .confirmed
  | .probable => .probable
  | .reject => .rejected
  | .revoke => .revoked
  | .defer => prior

/-- The edge of a hypothesis: same organization, endpoints and type. -/
def CausalEdge.Joins (h : CausalHypothesis) (e : CausalEdge) : Prop :=
  e.organizationId = h.organizationId ∧ e.sourceNodeId = h.sourceNodeId ∧
    e.targetNodeId = h.targetNodeId ∧ e.edgeType = h.proposedEdgeType

instance (h : CausalHypothesis) : DecidablePred (CausalEdge.Joins h) :=
  fun _ => inferInstanceAs (Decidable (_ ∧ _))

/-- What an accepted hypothesis writes to the edge that already joins its nodes. -/
def CausalEdge.pointTo (h : CausalHypothesis) (e : CausalEdge) : CausalEdge :=
  { e with
    hypothesisId := h.id, confidenceScore := h.confidenceScore
    evidenceCount := h.evidenceCount, contradictionCount := h.contradictionCount }

def newEdge (h : CausalHypothesis) (id : UUID) : CausalEdge where
  id
  organizationId := h.organizationId
  sourceNodeId := h.sourceNodeId
  targetNodeId := h.targetNodeId
  edgeType := h.proposedEdgeType
  hypothesisId := h.id
  confidenceScore := h.confidenceScore
  evidenceCount := h.evidenceCount
  contradictionCount := h.contradictionCount

/-- `_materialize_edge`. -/
def materializeEdge (edges : List CausalEdge) (h : CausalHypothesis) (id : UUID) :
    Except CausalError (List CausalEdge) :=
  match edges.find? (·.Joins h) with
  | some existing => return update (·.id = existing.id) (.pointTo h) edges
  | none => orFail (insert (fun a b => a.id = b.id) (newEdge h id) edges)
      (.integrity "causal_edges")

def reviewedEdges (db : Db) (h : CausalHypothesis) (decision : CausalReviewDecision)
    (edgeId : UUID) : Except CausalError (List CausalEdge) :=
  match decision with
  | .confirm | .probable => materializeEdge db.edges h edgeId
  | .reject | .revoke | .defer => .ok db.edges

/-- `CausalReviewService.review`. -/
def review (db : Db) (org hypothesisId : UUID) (decision : CausalReviewDecision)
    (actor edgeId : UUID) : Except CausalError (Db × CausalReview) := do
  let hypothesis ← getHypothesis db org hypothesisId
  checkDecision db hypothesis decision
  let prior := hypothesis.lifecycleStatus
  let resulting := resultingStatus prior decision
  let reviewed := { hypothesis with lifecycleStatus := resulting }
  let row : CausalReview :=
    { organizationId := org, hypothesisId, decision, reviewerUserId := actor
      priorLifecycleStatus := prior, resultingLifecycleStatus := resulting }
  let hypotheses ← writeHypothesis db hypothesis reviewed
  let edges ← reviewedEdges db reviewed decision edgeId
  return ({ db with hypotheses, reviews := db.reviews ++ [row], edges }, row)

/-! ## Outcomes -/

def revisionOf (env : Env) (h : CausalHypothesis) (effect : CausalOutcomeEffect)
    (org actor id : UUID) : CausalHypothesis where
  id
  organizationId := org
  sourceNodeId := h.sourceNodeId
  targetNodeId := h.targetNodeId
  proposedEdgeType := h.proposedEdgeType
  methodId := h.methodId
  lifecycleStatus := .underReview
  temporalLagSeconds := h.temporalLagSeconds
  contentHash := env.contentHash
    ⟨h.sourceNodeId, h.targetNodeId, h.proposedEdgeType, h.methodId, some (h.id, effect)⟩
  createdByUserId := actor

/-- The confirmed hypothesis that an outcome speaks against, if there is one. -/
def revisedHypothesis (db : Db) (intervention : CausalIntervention)
    (effect : CausalOutcomeEffect) : Option CausalHypothesis := do
  if effect = .weakened ∨ effect = .refuted then
    let edgeId ← intervention.targetedEdgeId
    let edge ← db.edges.find? (·.id = edgeId)
    db.hypotheses.find? fun h => h.id = edge.hypothesisId ∧ h.lifecycleStatus = .confirmed
  else none

def CausalHypothesis.supersededBy (revisionId : UUID) (h : CausalHypothesis) : CausalHypothesis :=
  { h with supersededByHypothesisId := some revisionId, lifecycleStatus := .superseded }

/-- `_feed_hypothesis_revision`. -/
def feedRevision (env : Env) (db : Db) (org : UUID) (intervention : CausalIntervention)
    (effect : CausalOutcomeEffect) (actor id : UUID) : Except CausalError Db :=
  match revisedHypothesis db intervention effect with
  | none => .ok db
  | some h => do
    let hypotheses ← insertHypothesis db (revisionOf env h effect org actor id)
    let hypotheses ← writeHypothesis { db with hypotheses } h (h.supersededBy id)
    return { db with hypotheses }

def findIntervention (context : Context) (org interventionId : UUID) : Option CausalIntervention :=
  context.interventions.find? fun i => i.id = interventionId ∧ i.organizationId = org

/-- `CausalOutcomeAssessmentService.create`. -/
def assess (env : Env) (context : Context) (db : Db) (org interventionId : UUID)
    (effect : CausalOutcomeEffect) (actor id : UUID) :
    Except CausalError (Db × CausalOutcomeAssessment) := do
  let intervention ← orFail (findIntervention context org interventionId)
    (fail "intervention_not_found" "causal intervention not found" 404)
  let row : CausalOutcomeAssessment :=
    { organizationId := org, interventionId, hypothesisEffect := effect, assessedByUserId := actor }
  let db ← feedRevision env db org intervention effect actor id
  return ({ db with assessments := db.assessments ++ [row] }, row)

/-! ## The graph -/

/-- The edges whose hypothesis is confirmed or probable. -/
def visibleEdges (db : Db) (org : UUID) : List CausalEdge :=
  db.edges.filter fun e => e.organizationId = org ∧ ∃ h ∈ db.hypotheses, h.id = e.hypothesisId ∧
    (h.lifecycleStatus = .confirmed ∨ h.lifecycleStatus = .probable)

/-- `RootCauseRankingService.traverse`: the visible edges by their source and by their target. -/
def traverse (db : Db) (org : UUID) : (UUID → List CausalEdge) × (UUID → List CausalEdge) :=
  (fun node => (visibleEdges db org).filter (·.sourceNodeId = node),
    fun node => (visibleEdges db org).filter (·.targetNodeId = node))

/-! ## Requests -/

inductive Request
  | create (payload : CausalHypothesisCreate)
  | propose (hypothesisId : UUID)
  | attach (hypothesisId : UUID) (payload : CausalEvidenceLinkCreate)
  | evaluate (hypothesisId : UUID)
  | review (hypothesisId : UUID) (decision : CausalReviewDecision)
  | assess (interventionId : UUID) (effect : CausalOutcomeEffect)

/-- A request of an organization's member, with the time it is served, the identifier drawn and
what the other tables then hold. -/
structure Call where
  (organizationId actor : UUID)
  now : Instant
  drawn : UUID
  context : Context
  request : Request

/-- Serve one request in a transaction of its own. -/
def serve (env : Env) : Service Db Call Unit CausalError := fun db call =>
  let org := call.organizationId
  match call.request with
  | .create payload =>
    (create env call.context db org payload call.actor call.drawn).map fun p => (p.1, ())
  | .propose hypothesisId => (propose db org hypothesisId).map fun p => (p.1, ())
  | .attach hypothesisId payload =>
    (attach db org hypothesisId payload call.drawn call.now).map fun p => (p.1, ())
  | .evaluate hypothesisId =>
    (evaluate env call.context db org hypothesisId call.now).map fun p => (p.1, ())
  | .review hypothesisId decision =>
    (review db org hypothesisId decision call.actor call.drawn).map fun p => (p.1, ())
  | .assess interventionId effect =>
    (assess env call.context db org interventionId effect call.actor call.drawn).map
      fun p => (p.1, ())

end Intel4Ops.Causal

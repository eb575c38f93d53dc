import Intel4Ops.Lib.Except
import Intel4Ops.Lib.Ident
import Intel4Ops.Lib.Table
import Mathlib.Data.List.Sort
import Mathlib.Data.Rat.Defs

/-!
# Semantic review

`semantic/review.py` and `services/semantic_review_service.py`: what a reviewer does about a machine
decision, the chain of versions that the reviews of a decision leave behind, the effective decision
that is read off the latest version, and the queue of decisions that are left to review. The
registry of canonical concepts is a parameter.
-/

namespace Intel4Ops.Reviews

open Lib

/-! ## Enumerations -/

/-- `InterpretationDecisionStatus` -/
inductive MachineStatus
  | autoAccepted | acceptedWithFlag | reviewRequired | unresolved | humanConfirmed | humanRejected
  deriving DecidableEq

inductive SemanticReviewAction
  | confirm | correct | reject | markUnresolved
  deriving DecidableEq

def SemanticReviewAction.value : SemanticReviewAction → String
  | confirm => "confirm"
  | correct => "correct"
  | reject => "reject"
  | markUnresolved => "mark_unresolved"

def SemanticReviewAction.ofValue? (value : String) : Option SemanticReviewAction :=
  [.confirm, .correct, .reject, .markUnresolved].find? fun action => action.value = value

inductive SemanticDecisionEffectiveStatus
  | humanConfirmed | humanCorrected | humanRejected | humanUnresolved
  deriving DecidableEq

inductive SemanticDecisionSource
  | humanConfirmation | humanCorrection | humanRejection | humanUnresolved
  deriving DecidableEq

inductive ReviewGroup
  | pendingReview | needsResolution | resolved
  deriving DecidableEq

def ReviewGroup.value : ReviewGroup → String
  | pendingReview => "pending_review"
  | needsResolution => "needs_resolution"
  | resolved => "resolved"

def ReviewGroup.ofValue? (value : String) : Option ReviewGroup :=
  [.pendingReview, .needsResolution, .resolved].find? fun group => group.value = value

/-- The statuses of an effective decision: a stored one, or one that the resolver computes. -/
inductive ResolvedStatus
  | human (status : SemanticDecisionEffectiveStatus)
  | machineAutoAccepted
  | unresolved
  | reviewRequired
  deriving DecidableEq

inductive ResolvedSource
  | human (source : SemanticDecisionSource)
  | deterministicConfidenceEngine
  | none

/-! ## Actions and the effective decision -/

/-- `effective_status_and_source_for_action` -/
def effectiveStatusAndSourceForAction :
    SemanticReviewAction → SemanticDecisionEffectiveStatus × SemanticDecisionSource
  | .confirm => (.humanConfirmed, .humanConfirmation)
  | .correct => (.humanCorrected, .humanCorrection)
  | .reject => (.humanRejected, .humanRejection)
  | .markUnresolved => (.humanUnresolved, .humanUnresolved)

/-- `validate_action_payload`: what is wrong with the payload of an action, if anything. -/
def validateActionPayload (action : SemanticReviewAction) (correctedConcept : Option String) :
    Option String :=
  if action = .correct then
    if correctedConcept.getD "" = "" then
      some "corrected_concept is required for the correct action"
    else none
  else if correctedConcept ≠ none then
    some ("corrected_concept must not be supplied for the " ++ action.value ++ " action")
  else none

structure StoredVersionView where
  versionNumber : ℕ
  effectiveStatus : SemanticDecisionEffectiveStatus
  effectiveConcept : Option String
  effectiveConfidence : Option ℚ

structure EffectiveDecision where
  effectiveStatus : ResolvedStatus
  effectiveConcept : Option String
  source : ResolvedSource
  effectiveConfidence : Option ℚ
  humanValidated : Bool
  explanation : String

/-- `resolve_effective_decision` -/
def resolveEffectiveDecision (machineStatus : MachineStatus) (machineSelectedConcept : Option String)
    (machineConfidence : ℚ) (latestVersion : Option StoredVersionView) : EffectiveDecision :=
  match latestVersion with
  | some version =>
    match version.effectiveStatus with
    | .humanConfirmed =>
      { effectiveStatus := .human .humanConfirmed
        effectiveConcept := machineSelectedConcept
        source := .human .humanConfirmation
        effectiveConfidence := version.effectiveConfidence
        humanValidated := true
        explanation := "A reviewer confirmed the machine proposal as-is." }
    | .humanCorrected =>
      { effectiveStatus := .human .humanCorrected
        effectiveConcept := version.effectiveConcept
        source := .human .humanCorrection
        effectiveConfidence := version.effectiveConfidence
        humanValidated := true
        explanation := "A reviewer corrected the machine proposal to a different concept." }
    | .humanRejected =>
      { effectiveStatus := .human .humanRejected
        effectiveConcept := none
        source := .human .humanRejection
        effectiveConfidence := none
        humanValidated := true
        explanation := "A reviewer explicitly rejected this field; it does not fall back to the " ++
          "machine proposal. A later confirm/correct can restore an effective interpretation." }
    | .humanUnresolved =>
      { effectiveStatus := .human .humanUnresolved
        effectiveConcept := none
        source := .human .humanUnresolved
        effectiveConfidence := none
        humanValidated := true
        explanation := "A reviewer explicitly marked this field unresolved. A later " ++
          "confirm/correct can restore an effective interpretation." }
  | none =>
    match machineStatus with
    | .autoAccepted =>
      { effectiveStatus := .machineAutoAccepted
        effectiveConcept := machineSelectedConcept
        source := .deterministicConfidenceEngine
        effectiveConfidence := some machineConfidence
        humanValidated := false
        explanation := "The deterministic confidence engine auto-accepted this proposal; no " ++
          "human has reviewed it." }
    | .unresolved =>
      { effectiveStatus := .unresolved
        effectiveConcept := none
        source := .none
        effectiveConfidence := none
        humanValidated := false
        explanation := "The machine could not produce an actionable proposal for this field." }
    | _ =>
      { effectiveStatus := .reviewRequired
        effectiveConcept := none
        source := .none
        effectiveConfidence := none
        humanValidated := false
        explanation := "The machine proposal has not yet been reviewed by a human." }

/-- `classify_review_group` -/
def classifyReviewGroup (machineStatus : MachineStatus)
    (latestVersion : Option StoredVersionView) : Option ReviewGroup :=
  match latestVersion with
  | some version =>
    if version.effectiveStatus = .humanConfirmed ∨ version.effectiveStatus = .humanCorrected then
      some .resolved
    else some .needsResolution
  | none =>
    match machineStatus with
    | .unresolved => some .needsResolution
    | .acceptedWithFlag | .reviewRequired => some .pendingReview
    | _ => none

/-! ## Rows -/

structure AnalysisCaseDataset where
  (id organizationId analysisCaseId : UUID)
  sourceLabel : String

structure SemanticInterpretationDecision where
  (id organizationId analysisCaseDatasetId runId : UUID)
  sourceField : String
  selectedConcept : Option String
  confidence : ℚ
  status : MachineStatus
  createdAt : Instant
  deriving DecidableEq

structure SemanticReview where
  (id organizationId decisionId : UUID)
  action : SemanticReviewAction
  (correctedConcept notes : Option String)
  reviewerUserId : UUID
  reviewerRole : String

structure SemanticDecisionVersion where
  (id organizationId decisionId : UUID)
  versionNumber : ℕ
  supersedesVersionId : Option UUID
  effectiveStatus : SemanticDecisionEffectiveStatus
  effectiveConcept : Option String
  reviewId : UUID
  source : SemanticDecisionSource
  effectiveConfidence : Option ℚ
  createdByUserId : UUID
  deriving DecidableEq

structure Db where
  datasets : List AnalysisCaseDataset
  decisions : List SemanticInterpretationDecision
  reviews : List SemanticReview
  versions : List SemanticDecisionVersion

/-- The registry of canonical concepts. -/
structure Env where
  /-- Whether a concept code is registered. -/
  concept : String → Bool

/-- How a call is raised: by the service, by a constraint of the store, or by a value that is no
review group. -/
inductive Error
  | service (code message : String) (status : ℕ)
  | integrity
  | value (message : String)

/-- A call of `submit_review`, with the identifiers of the rows that it adds. -/
structure Call where
  (organizationId decisionId : UUID)
  action : String
  (correctedConcept notes : Option String)
  expectedVersion : ℤ
  reviewerUserId : UUID
  reviewerRole : String
  (reviewId versionId : UUID)

/-! ## Reading -/

/-- `_get_decision`, with or without the lock of the row. -/
def Db.decision (db : Db) (organizationId decisionId : UUID) :
    Except Error SemanticInterpretationDecision :=
  orFail (db.decisions.find? fun d => d.organizationId = organizationId ∧ d.id = decisionId)
    (.service "SEMANTIC_DECISION_NOT_FOUND" "Semantic decision not found" 404)

/-- The versions of a decision, in the order in which they were added. -/
def Db.versionsOf (db : Db) (organizationId decisionId : UUID) : List SemanticDecisionVersion :=
  db.versions.filter fun v => v.organizationId = organizationId ∧ v.decisionId = decisionId

/-- `_latest_version` -/
def Db.latestVersion (db : Db) (organizationId decisionId : UUID) :
    Option SemanticDecisionVersion :=
  ((db.versionsOf organizationId decisionId).insertionSort fun a b =>
    b.versionNumber ≤ a.versionNumber).head?

/-- `_to_view` -/
def SemanticDecisionVersion.toView (version : SemanticDecisionVersion) : StoredVersionView where
  versionNumber := version.versionNumber
  effectiveStatus := version.effectiveStatus
  effectiveConcept := version.effectiveConcept
  effectiveConfidence := version.effectiveConfidence

/-- The effective decision behind a decision row. -/
def Db.effective (db : Db) (decision : SemanticInterpretationDecision) : EffectiveDecision :=
  resolveEffectiveDecision decision.status decision.selectedConcept decision.confidence
    ((db.latestVersion decision.organizationId decision.id).map (·.toView))

structure ReviewQueueItem where
  decision : SemanticInterpretationDecision
  datasetLabel : String
  latestVersion : Option SemanticDecisionVersion
  group : ReviewGroup

def Db.caseDatasets (db : Db) (organizationId caseId : UUID) : List AnalysisCaseDataset :=
  db.datasets.filter fun d => d.organizationId = organizationId ∧ d.analysisCaseId = caseId

/-- The first decision of each dataset and field. -/
def firstOfFields (decisions : List SemanticInterpretationDecision) :
    List SemanticInterpretationDecision :=
  decisions.foldl (fun kept d =>
    if ∃ e ∈ kept, e.analysisCaseDatasetId = d.analysisCaseDatasetId ∧
      e.sourceField = d.sourceField then kept else kept ++ [d]) []

/-- The decisions that the queue of a case is made of: those of a run, or the latest one of each
field. -/
def Db.reviewScope (db : Db) (organizationId caseId : UUID) (runId : Option UUID) :
    List SemanticInterpretationDecision :=
  let decisions := db.decisions.filter fun d => d.organizationId = organizationId ∧
    ∃ dataset ∈ db.caseDatasets organizationId caseId, dataset.id = d.analysisCaseDatasetId
  match runId with
  | some runId => decisions.filter (·.runId = runId)
  | none => firstOfFields (decisions.insertionSort fun a b => b.createdAt ≤ a.createdAt)

/-- The groups that a caller asks for; `none` stands for all of them. -/
def wantedGroups (group : Option String) : Except Error (Option (List ReviewGroup)) :=
  if group = some "all" then .ok none
  else if group.getD "" = "" then .ok (some [.pendingReview, .needsResolution])
  else do
    let wanted ← orFail (ReviewGroup.ofValue? (group.getD ""))
      (.value (group.getD "" ++ " is not a valid ReviewGroup"))
    return some [wanted]

/-- The queue item of a decision, if it belongs to one of the wanted groups. -/
def Db.queueItem (db : Db) (organizationId caseId : UUID) (wanted : Option (List ReviewGroup))
    (decision : SemanticInterpretationDecision) : Option ReviewQueueItem :=
  let latestVersion := db.latestVersion organizationId decision.id
  match classifyReviewGroup decision.status (latestVersion.map (·.toView)) with
  | none => none
  | some group =>
    if ∀ groups ∈ wanted, group ∈ groups then
      let label := ((db.caseDatasets organizationId caseId).find?
        (·.id = decision.analysisCaseDatasetId)).elim "" (·.sourceLabel)
      some ⟨decision, label, latestVersion, group⟩
    else none

/-- `list_review_queue` -/
def Db.listReviewQueue (db : Db) (organizationId caseId : UUID) (runId : Option UUID)
    (group : Option String) : Except Error (List ReviewQueueItem) :=
  if db.caseDatasets organizationId caseId = [] then .ok []
  else do
    let wanted ← wantedGroups group
    let items := (db.reviewScope organizationId caseId runId).filterMap
      (db.queueItem organizationId caseId wanted)
    return items.insertionSort fun a b => a.decision.confidence ≤ b.decision.confidence

/-! ## Submitting a review -/

/-- What `submit_review` checks before it locks the decision. -/
def checkRequest (env : Env) (call : Call) : Except Error SemanticReviewAction := do
  let action ← orFail (SemanticReviewAction.ofValue? call.action)
    (.service "SEMANTIC_REVIEW_INVALID_ACTION" ("Unknown review action: " ++ call.action) 400)
  match validateActionPayload action call.correctedConcept with
  | some message => .error (.service "SEMANTIC_REVIEW_INVALID_ACTION" message 400)
  | none =>
    ensure (action = .correct → env.concept (call.correctedConcept.getD "") = true)
      (.service "SEMANTIC_REVIEW_INVALID_CONCEPT"
        ("Unknown canonical concept: " ++ call.correctedConcept.getD "") 400)
    return action

/-- The number of the current version; 0 when there is none. -/
def versionNumber (latest : Option SemanticDecisionVersion) : ℕ := latest.elim 0 (·.versionNumber)

/-- The latest version of the decision, if it is the one that the caller has read. -/
def Db.expectedVersion (db : Db) (call : Call) : Except Error (Option SemanticDecisionVersion) := do
  let latest := db.latestVersion call.organizationId call.decisionId
  ensure ((versionNumber latest : ℤ) = call.expectedVersion)
    (.service "SEMANTIC_REVIEW_VERSION_CONFLICT"
      "Semantic decision version changed since expected_version was read" 409)
  return latest

def Call.review (call : Call) (action : SemanticReviewAction) : SemanticReview where
  id := call.reviewId
  organizationId := call.organizationId
  decisionId := call.decisionId
  action
  correctedConcept := call.correctedConcept
  notes := call.notes
  reviewerUserId := call.reviewerUserId
  reviewerRole := call.reviewerRole

def effectiveConcept (action : SemanticReviewAction) (decision : SemanticInterpretationDecision)
    (correctedConcept : Option String) : Option String :=
  match action with
  | .confirm => decision.selectedConcept
  | .correct => correctedConcept
  | .reject | .markUnresolved => none

def effectiveConfidence (action : SemanticReviewAction)
    (decision : SemanticInterpretationDecision) : Option ℚ :=
  if action = .confirm then some decision.confidence else none

def Call.version (call : Call) (action : SemanticReviewAction)
    (decision : SemanticInterpretationDecision) (latest : Option SemanticDecisionVersion) :
    SemanticDecisionVersion where
  id := call.versionId
  organizationId := call.organizationId
  decisionId := call.decisionId
  versionNumber := versionNumber latest + 1
  supersedesVersionId := latest.map (·.id)
  effectiveStatus := (effectiveStatusAndSourceForAction action).1
  effectiveConcept := effectiveConcept action decision call.correctedConcept
  reviewId := call.reviewId
  source := (effectiveStatusAndSourceForAction action).2
  effectiveConfidence := effectiveConfidence action decision
  createdByUserId := call.reviewerUserId

/-- The constraints of the versions: their identifiers, and one version of a number a decision. -/
def SemanticDecisionVersion.Clash (v w : SemanticDecisionVersion) : Prop :=
  v.id = w.id ∨ v.organizationId = w.organizationId ∧ v.decisionId = w.decisionId ∧
    v.versionNumber = w.versionNumber

instance (v w : SemanticDecisionVersion) : Decidable (v.Clash w) :=
  inferInstanceAs (Decidable (_ ∨ _ ∧ _ ∧ _))

/-- The rows that a call adds: the review and, behind it, the version. -/
def Db.record (db : Db) (call : Call) (action : SemanticReviewAction)
    (decision : SemanticInterpretationDecision) (latest : Option SemanticDecisionVersion) :
    Except Error (Db × SemanticReview × SemanticDecisionVersion) := do
  let review := call.review action
  let reviews ← orFail (Table.insert (fun r r' => r.id = r'.id) review db.reviews) .integrity
  let version := call.version action decision latest
  let versions ← orFail (Table.insert SemanticDecisionVersion.Clash version db.versions) .integrity
  return ({ db with reviews, versions }, review, version)

/-- `submit_review` -/
def Db.submitReview (db : Db) (env : Env) (call : Call) :
    Except Error (Db × SemanticReview × SemanticDecisionVersion) := do
  let action ← checkRequest env call
  let decision ← db.decision call.organizationId call.decisionId
  let latest ← db.expectedVersion call
  db.record call action decision latest

end Intel4Ops.Reviews

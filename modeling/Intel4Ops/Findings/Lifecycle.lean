import Intel4Ops.Findings.Publisher

/-!
# The lifecycle of findings

`FindingLifecycleService` and `FindingReviewService` of `services/finding_platform_service.py`, and
what `publish_candidate_finding` leaves for them. The columns of a finding that they read or write
are a row of their own next to the row of the publication; comments, roles and metadata are left
out. A review commits its transitions one by one; none of them can fail behind another one, so a
review is one step here.
-/

namespace Intel4Ops.FindingLifecycle

open Lib Intel4Ops.Findings

/-! ## Rows -/

inductive FindingStatus
  | draft | published | underReview | confirmed | dismissed | superseded | resolved | archived
  | open_ | accepted | inRecovery | verified
  deriving DecidableEq

/-- What the lifecycle reads and writes of a finding; a finding without a code is not governed. -/
structure FindingRow where
  (id organizationId : UUID)
  findingCode : Option String
  status : FindingStatus
  supersededByFindingId : Option UUID := none
  publishedAt : Option Instant := none
  confirmedAt : Option Instant := none
  dismissedAt : Option Instant := none
  resolvedAt : Option Instant := none
  supersededAt : Option Instant := none
  archivedAt : Option Instant := none
  updatedAt : Option Instant := none
  updatedByUserId : Option UUID := none

structure FindingStatusHistory where
  (id organizationId findingId : UUID)
  (previousStatus newStatus : FindingStatus)
  reasonCode : String
  changedByUserId : UUID
  changedAt : Instant
  supersedingFindingId : Option UUID := none

inductive ReviewDecision
  | confirm | dismiss | requestMoreEvidence | returnToDraft | markSuperseded

structure FindingReview where
  (organizationId findingId : UUID)
  decision : ReviewDecision
  reviewerUserId : UUID
  reasonCode : String
  reviewedAt : Instant

/-- The published findings, the lifecycle of all findings, and what is recorded of it. -/
structure Store where
  published : List Finding
  findings : List FindingRow
  history : List FindingStatusHistory
  reviews : List FindingReview

/-! ## The table of transitions -/

/-- `FindingLifecycleService.transitions`. -/
def transitions : FindingStatus → List FindingStatus
  | .draft => [.published]
  | .published => [.underReview, .dismissed, .superseded, .resolved, .archived]
  | .underReview => [.confirmed, .dismissed]
  | .confirmed => [.resolved, .superseded, .archived]
  | .dismissed => [.archived]
  | .superseded => [.archived]
  | .resolved => [.archived]
  | .archived | .open_ | .accepted | .inRecovery | .verified => []

def historyRank : FindingStatus → ℕ
  | .published => 1
  | .underReview => 2
  | .confirmed | .dismissed => 3
  | .resolved | .superseded => 4
  | .archived => 5
  | .draft | .open_ | .accepted | .inRecovery | .verified => 99

/-! ## Publication -/

inductive LifecycleError
  | publish (error : PublishError)
  | platform (code message : String)
  | integrity

def publishedRow (env : Env) (finding : Finding) (actor : UUID) (now : Instant) : FindingRow where
  id := finding.id
  organizationId := finding.organizationId
  findingCode :=
    some ("FND-" ++ env.upper (String.ofList (finding.deduplicationKey.toList.take 16)))
  status := .published
  publishedAt := some now
  updatedAt := some now
  updatedByUserId := some actor

/-- `publish_candidate_finding`; a stored finding is returned as it is. The other tables are those
of `context`. -/
def publishCandidate (env : Env) (context : Db) (s : Store) (org : UUID)
    (payload : CandidateFindingCreate) (actor findingId historyId : UUID) (now : Instant) :
    Except LifecycleError Store :=
  match publishCandidateFinding env { context with findings := s.published } org payload
      findingId with
  | .error e => .error (.publish e)
  | .ok (db, finding) =>
    if ∃ f ∈ s.published, f.id = finding.id then .ok s
    else do
      let findings ← orFail (Table.insert (fun f f' => f.id = f'.id)
        (publishedRow env finding actor now) s.findings) .integrity
      return { s with
        published := db.findings
        findings
        history := s.history ++ [{
          id := historyId, organizationId := org, findingId := finding.id, previousStatus := .draft
          newStatus := .published, reasonCode := "publication_policy_satisfied"
          changedByUserId := actor, changedAt := now }] }

/-! ## Transitions -/

structure LifecycleCommand where
  reasonCode : String
  supersedingFindingId : Option UUID := none

/-- `FindingQueryService.get`. -/
def get (s : Store) (org findingId : UUID) : Except LifecycleError FindingRow :=
  orFail (s.findings.find? fun f =>
      f.id = findingId ∧ f.organizationId = org ∧ f.findingCode ≠ none)
    (.platform "FINDING_NOT_FOUND" "Finding not found")

/-- A superseding finding is another stored one. -/
def checkReplacement (s : Store) (org : UUID) (finding : FindingRow) (newStatus : FindingStatus)
    (command : LifecycleCommand) : Except LifecycleError Unit :=
  if newStatus = .superseded then
    match command.supersedingFindingId with
    | none => .error (.platform "INVALID_STATUS_TRANSITION"
        "A distinct superseding finding is required")
    | some replacement => do
      ensure (replacement ≠ finding.id) (.platform "INVALID_STATUS_TRANSITION"
        "A distinct superseding finding is required")
      let _ ← get s org replacement
      return ()
  else .ok ()

/-- What a transition writes to the finding. -/
def FindingRow.moveTo (newStatus : FindingStatus) (command : LifecycleCommand) (actor : UUID)
    (now : Instant) (finding : FindingRow) : FindingRow :=
  let finding :=
    { finding with status := newStatus, updatedAt := some now, updatedByUserId := some actor }
  match newStatus with
  | .superseded => { finding with
      supersededByFindingId := command.supersedingFindingId, supersededAt := some now }
  | .confirmed => { finding with confirmedAt := some now }
  | .dismissed => { finding with dismissedAt := some now }
  | .resolved => { finding with resolvedAt := some now }
  | .archived => { finding with archivedAt := some now }
  | .published => { finding with publishedAt := some now }
  | _ => finding

def transitionRow (finding : FindingRow) (newStatus : FindingStatus) (command : LifecycleCommand)
    (org actor historyId : UUID) (now : Instant) : FindingStatusHistory where
  id := historyId
  organizationId := org
  findingId := finding.id
  previousStatus := finding.status
  newStatus
  reasonCode := command.reasonCode
  changedByUserId := actor
  changedAt := now
  supersedingFindingId := command.supersedingFindingId

/-- `FindingLifecycleService.transition`. -/
def transition (s : Store) (org findingId : UUID) (newStatus : FindingStatus)
    (command : LifecycleCommand) (actor historyId : UUID) (now : Instant) :
    Except LifecycleError Store := do
  let finding ← get s org findingId
  ensure (newStatus ∈ transitions finding.status)
    (.platform "INVALID_STATUS_TRANSITION" "Invalid finding status transition")
  checkReplacement s org finding newStatus command
  return { s with
    findings := Table.update (·.id = finding.id) (.moveTo newStatus command actor now) s.findings
    history := s.history ++ [transitionRow finding newStatus command org actor historyId now] }

/-- The order of `FindingLifecycleService.history`. -/
def FindingStatusHistory.ListedBefore (a b : FindingStatusHistory) : Prop :=
  a.changedAt < b.changedAt ∨ a.changedAt = b.changedAt ∧
    (historyRank a.newStatus < historyRank b.newStatus ∨
      historyRank a.newStatus = historyRank b.newStatus ∧ a.id ≤ b.id)

instance : DecidableRel FindingStatusHistory.ListedBefore :=
  fun _ _ => inferInstanceAs (Decidable (_ ∨ _))

/-- The recorded changes of a finding, oldest first. -/
def rowsOf (s : Store) (findingId : UUID) : List FindingStatusHistory :=
  s.history.filter (·.findingId = findingId)

/-- `FindingLifecycleService.history`, without the lookup of the finding. -/
def listHistory (s : Store) (findingId : UUID) : List FindingStatusHistory :=
  (rowsOf s findingId).insertionSort FindingStatusHistory.ListedBefore

/-! ## Reviews -/

structure ReviewCreate where
  decision : ReviewDecision
  reasonCode : String
  supersedingFindingId : Option UUID := none

def ReviewDecision.target : ReviewDecision → FindingStatus
  | confirm => .confirmed
  | dismiss => .dismissed
  | requestMoreEvidence => .underReview
  | markSuperseded => .superseded
  | returnToDraft => .draft

/-- A published finding is taken under review before it is confirmed or dismissed. -/
def startReview (s : Store) (org : UUID) (finding : FindingRow) (target : FindingStatus)
    (actor historyId : UUID) (now : Instant) : Except LifecycleError Store :=
  if target ∈ [FindingStatus.confirmed, .dismissed] ∧ finding.status = .published then
    transition s org finding.id .underReview ⟨"review_started", none⟩ actor historyId now
  else .ok s

/-- The transitions of a review; only a supersession names another finding. -/
def reviewTransitions (s : Store) (org : UUID) (finding : FindingRow) (payload : ReviewCreate)
    (actor : UUID) (historyIds : Fin 2 → UUID) (times : Fin 2 → Instant) :
    Except LifecycleError Store :=
  match payload.decision with
  | .returnToDraft => .error (.platform "INVALID_STATUS_TRANSITION"
      "Published findings cannot return to draft")
  | .markSuperseded => transition s org finding.id .superseded
      ⟨payload.reasonCode, payload.supersedingFindingId⟩ actor (historyIds 0) (times 0)
  | decision => do
    let s ← startReview s org finding decision.target actor (historyIds 0) (times 0)
    transition s org finding.id decision.target ⟨payload.reasonCode, none⟩ actor (historyIds 1)
      (times 1)

/-- `FindingReviewService.create`. -/
def createReview (s : Store) (org findingId : UUID) (payload : ReviewCreate) (reviewer : UUID)
    (historyIds : Fin 2 → UUID) (times : Fin 2 → Instant) (now : Instant) :
    Except LifecycleError Store := do
  let finding ← get s org findingId
  let s ← reviewTransitions s org finding payload reviewer historyIds times
  return { s with
    reviews := s.reviews ++ [{
      organizationId := org, findingId, decision := payload.decision, reviewerUserId := reviewer
      reasonCode := payload.reasonCode, reviewedAt := now }] }

/-! ## Requests -/

inductive Request
  | publish (context : Db) (payload : CandidateFindingCreate) (findingId : UUID)
  | transition (findingId : UUID) (newStatus : FindingStatus) (command : LifecycleCommand)
  | review (findingId : UUID) (payload : ReviewCreate)

/-- A request of an organization's member, with the identifiers of the history rows it may write
and the times at which it writes them and its own row. -/
structure Call where
  (organizationId actor : UUID)
  historyIds : Fin 2 → UUID
  times : Fin 2 → Instant
  now : Instant
  request : Request

/-- Serve one request. -/
def serve (env : Env) : Service Store Call Unit LifecycleError := fun s call =>
  let org := call.organizationId
  let result := match call.request with
    | .publish context payload findingId =>
      publishCandidate env context s org payload call.actor findingId (call.historyIds 0) call.now
    | .transition findingId newStatus command =>
      transition s org findingId newStatus command call.actor (call.historyIds 0) call.now
    | .review findingId payload =>
      createReview s org findingId payload call.actor call.historyIds call.times call.now
  result.map (·, ())

end Intel4Ops.FindingLifecycle

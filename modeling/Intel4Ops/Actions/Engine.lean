import Intel4Ops.Lib.Decimal
import Intel4Ops.Lib.Except

/-!
# Operational actions: the engine

The pure functions of `app/engines/action_engine.py`. Decimals are rationals that every operation
rounds to the 28 significant digits of the context. The texts of the priority components are left
out.
-/

namespace Intel4Ops.Actions

inductive ActionStatus
  | proposed
  | pendingApproval
  | approved
  | rejected
  | assigned
  | scheduled
  | inProgress
  | blocked
  | completed
  | verificationPending
  | verified
  | verificationRejected
  | cancelled
  deriving DecidableEq

end Intel4Ops.Actions

namespace Intel4Ops.ActionService

open Lib Lib.Decimal Intel4Ops.Actions

/-! ## The lifecycle -/

def statusValue : ActionStatus → String
  | .proposed => "proposed"
  | .pendingApproval => "pending_approval"
  | .approved => "approved"
  | .rejected => "rejected"
  | .assigned => "assigned"
  | .scheduled => "scheduled"
  | .inProgress => "in_progress"
  | .blocked => "blocked"
  | .completed => "completed"
  | .verificationPending => "verification_pending"
  | .verified => "verified"
  | .verificationRejected => "verification_rejected"
  | .cancelled => "cancelled"

/-- `ALLOWED_TRANSITIONS`. -/
def allowedTransitions : ActionStatus → List ActionStatus
  | .proposed => [.pendingApproval, .approved, .cancelled]
  | .pendingApproval => [.approved, .rejected, .cancelled]
  | .approved => [.assigned, .cancelled]
  | .assigned => [.scheduled, .inProgress, .cancelled]
  | .scheduled => [.inProgress, .cancelled]
  | .inProgress => [.blocked, .completed, .cancelled]
  | .blocked => [.inProgress, .cancelled]
  | .completed => [.verificationPending, .cancelled]
  | .verificationPending => [.verified, .verificationRejected]
  | .verificationRejected => [.inProgress, .completed, .cancelled]
  | .rejected => []
  | .verified => []
  | .cancelled => []

inductive ActionServiceError
  | service (code message : String) (status : Nat)
  | engine (message : String)
  | dataError (column : String)
  | integrity (constraint : String)

def fail (code message : String) (status : Nat := 422) : ActionServiceError :=
  .service code message status

def requireTransition (current requested : ActionStatus) : Except ActionServiceError Unit :=
  ensure (requested ∈ allowedTransitions current) (.engine
    ("Transition " ++ statusValue current ++ " -> " ++ statusValue requested ++ " is not allowed"))

/-! ## Priority and approval -/

structure PriorityInput where
  failureProbability : Option ℚ
  severity : ℕ
  horizonDays : Option ℤ
  (confidence financialExposure : Option ℚ)
  resourceReady : Bool := false
  dependenciesReady : Bool := false

structure PriorityResult where
  score : ℚ
  classification : String
  limitations : List String

def urgency (horizonDays : Option ℤ) : ℚ :=
  if horizonDays.any (· ≤ 7) then 1 else if horizonDays.any (· ≤ 30) then 3 / 5 else 1 / 5

def priorityClassification (score : ℚ) : String :=
  if 80 ≤ score then "critical" else if 60 ≤ score then "high" else if 35 ≤ score then "medium"
  else "low"

def missingInputs (value : PriorityInput) : List String :=
  (if value.failureProbability.isNone then ["MISSING_FAILURE_PROBABILITY"] else []) ++
    (if value.horizonDays.isNone then ["MISSING_HORIZON"] else []) ++
    (if value.confidence.isNone then ["MISSING_CONFIDENCE"] else []) ++
    (if value.financialExposure.isNone then ["MISSING_FINANCIAL_EXPOSURE"] else [])

/-- The weighted components, added up from the left. -/
def priorityScore (value : PriorityInput) : ℚ :=
  let exposure := min 1 (context (value.financialExposure.getD 0 / 100000))
  let readiness : ℚ := if value.resourceReady ∧ value.dependenciesReady then 1 else 2 / 5
  [context (context (value.severity / 5) * 25), context (urgency value.horizonDays * 15),
    context (value.confidence.getD 0 * 10), context (exposure * 10),
    context (readiness * 5)].foldl (fun sum x => context (sum + x))
    (context (value.failureProbability.getD 0 * 35))

def calculatePriority (value : PriorityInput) : Except ActionServiceError PriorityResult := do
  let score ← orFail (quantize halfEven 2 (priorityScore value)) (.engine "InvalidOperation")
  return ⟨score, priorityClassification score, missingInputs value⟩

structure ApprovalResult where
  required : Bool
  (level role : String)
  reasons : List String

def approvalReasons (interventionCost avoidedCost confidence : ℚ) (sensitive : Bool) :
    List String :=
  (if 10000 ≤ interventionCost then ["HIGH_INTERVENTION_COST"] else []) ++
    (if 50000 ≤ avoidedCost then ["HIGH_EXPECTED_EXPOSURE"] else []) ++
    (if confidence < 3 / 5 then ["LOW_CONFIDENCE"] else []) ++
    (if sensitive then ["SENSITIVE_OPERATIONAL_IMPACT"] else [])

def calculateApproval (interventionCost avoidedCost confidence : ℚ) (sensitive : Bool) :
    ApprovalResult :=
  let reasons := approvalReasons interventionCost avoidedCost confidence sensitive
  let required := !reasons.isEmpty
  ⟨required, if required then "organization_admin" else "none",
    if required then "organization_admin" else "operator", reasons⟩

/-! ## Readiness -/

/-- `dependencies_ready` and `resources_ready`: every mandatory item is at hand. -/
def itemsReady (items : List (Bool × Bool)) : Bool :=
  items.all fun (mandatory, ready) => ready || !mandatory

def dependenciesReady : List (Bool × Bool) → Bool := itemsReady

def resourcesReady : List (Bool × Bool) → Bool := itemsReady

theorem itemsReady_iff {items : List (Bool × Bool)} :
    itemsReady items = true ↔ ∀ item ∈ items, item.1 = true → item.2 = true := by
  rw [itemsReady, List.all_eq_true]
  refine forall₂_congr fun item _ => ?_
  rcases item with ⟨mandatory, ready⟩
  cases mandatory <;> cases ready <;> decide

def realizedValueEligible (status : ActionStatus) (verifiedEvidenceCount : ℕ) : Bool :=
  status = .verified ∧ 0 < verifiedEvidenceCount

def classifyFeedback (predictedPositive failureOccurred interventionPerformed
    observationWindowComplete : Bool) : String :=
  if !observationWindowComplete then "insufficient_observation_window"
  else if predictedPositive && interventionPerformed && !failureOccurred then "prevented_event"
  else if predictedPositive then
    if failureOccurred then "true_positive" else "false_positive"
  else if failureOccurred then "false_negative" else "true_negative"

end Intel4Ops.ActionService

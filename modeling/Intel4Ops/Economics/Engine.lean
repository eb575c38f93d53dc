import Intel4Ops.Lib.Decimal
import Intel4Ops.Lib.Except

/-!
# Recovery economics: the engine

`app/engines/economics_engine.py`: the lifecycle of an opportunity, the economic cascade, the
priority score and the portfolio share. What the decimal context makes of the result of an operation
is a parameter: `ctx` is `context` in the service, and `id` makes the arithmetic exact.
Quantizations round half up and fail beyond the 28 digits of the context.
-/

namespace Intel4Ops.Economics

open Lib Lib.Decimal

inductive OpportunityStatus
  | draft
  | underReview
  | economicallyQualified
  | approvedForAction
  | deferred
  | monitor
  | rejected
  | superseded
  | cancelled
  deriving DecidableEq

def OpportunityStatus.value : OpportunityStatus → String
  | draft => "draft"
  | underReview => "under_review"
  | economicallyQualified => "economically_qualified"
  | approvedForAction => "approved_for_action"
  | deferred => "deferred"
  | monitor => "monitor"
  | rejected => "rejected"
  | superseded => "superseded"
  | cancelled => "cancelled"

inductive PriorityCategory
  | critical
  | high
  | medium
  | low
  | monitor
  | notEconomic
  | blocked
  | insufficientEvidence
  deriving DecidableEq

/-- `ALLOWED_STATUS_TRANSITIONS`. -/
def allowedStatusTransitions : OpportunityStatus → List OpportunityStatus
  | .draft => [.underReview, .deferred, .monitor, .rejected, .cancelled]
  | .underReview => [.economicallyQualified, .deferred, .monitor, .rejected, .cancelled]
  | .economicallyQualified => [.approvedForAction, .deferred, .monitor, .rejected, .superseded]
  | .approvedForAction => [.deferred, .superseded, .cancelled]
  | .deferred => [.underReview, .rejected]
  | .monitor => [.underReview, .rejected]
  | .rejected => []
  | .superseded => []
  | .cancelled => []

/-- How the engine fails: a rule of its own, or a quantization beyond the context. -/
inductive EconomicsError
  | rule (message : String)
  | invalidOperation
  deriving DecidableEq

structure EconomicInput where
  (grossExposure addressabilityRate recoverabilityRate successProbability recoveryCost : ℚ)
  benefitPeriodDays : Option ℤ

structure EconomicResult where
  (grossExposure addressableExposure expectedRecoverableValue probabilityAdjustedValue recoveryCost
    expectedNetBenefit : ℚ)
  (expectedRoi paybackPeriodDays : Option ℚ)
  zeroCostPolicy : String
  deriving DecidableEq

structure PriorityInput where
  (probabilityAdjustedValue expectedNetBenefit : ℚ)
  (expectedRoi paybackPeriodDays : Option ℚ)
  (urgencyScore confidenceScore feasibilityScore strategicAlignmentScore riskScore : ℚ)
  (dependencyReady resourceReady : Bool)

/-- One number for each factor of the priority score. -/
structure Factors where
  (economicValue netBenefit roi payback urgency confidence feasibility strategicAlignment risk : ℚ)

structure PriorityResult where
  score : ℚ
  category : PriorityCategory
  (normalizedFactors contributions weights : Factors)
  limitations : List String

namespace Factors

def map (g : ℚ → ℚ) (f : Factors) : Factors :=
  ⟨g f.economicValue, g f.netBenefit, g f.roi, g f.payback, g f.urgency, g f.confidence,
    g f.feasibility, g f.strategicAlignment, g f.risk⟩

def mul (f g : Factors) : Factors :=
  ⟨f.economicValue * g.economicValue, f.netBenefit * g.netBenefit, f.roi * g.roi,
    f.payback * g.payback, f.urgency * g.urgency, f.confidence * g.confidence,
    f.feasibility * g.feasibility, f.strategicAlignment * g.strategicAlignment,
    f.risk * g.risk⟩

def toList (f : Factors) : List ℚ :=
  [f.economicValue, f.netBenefit, f.roi, f.payback, f.urgency, f.confidence, f.feasibility,
    f.strategicAlignment, f.risk]

/-- The sum of all factors. -/
def total (ctx : ℚ → ℚ) (f : Factors) : ℚ := f.toList.foldl (fun sum x => ctx (sum + x)) 0

end Factors

/-- `DEFAULT_WEIGHTS`. -/
def defaultWeights : Factors :=
  ⟨25 / 100, 15 / 100, 10 / 100, 10 / 100, 15 / 100, 10 / 100, 5 / 100, 5 / 100, 5 / 100⟩

/-- `WEIGHTING_PROFILES`. -/
def weightingProfiles : String → Option Factors
  | "default_enterprise" => some defaultWeights
  | "cash_recovery" => some { defaultWeights with
      economicValue := 30 / 100, netBenefit := 20 / 100, urgency := 10 / 100
      strategicAlignment := 0 }
  | "safety_critical" => some { defaultWeights with
      economicValue := 15 / 100, netBenefit := 10 / 100, urgency := 25 / 100, risk := 15 / 100 }
  | _ => none

/-- `_money`: quantize to twelve places, half up. -/
def money (value : ℚ) : Except EconomicsError ℚ :=
  orFail (quantize halfUp 12 value) .invalidOperation

/-- `_rate`. -/
def rate (name : String) (value : ℚ) : Except EconomicsError ℚ := do
  ensure (0 ≤ value ∧ value ≤ 1) (.rule (name ++ " must be between 0 and 1"))
  return value

/-- Payback is only defined over a positive period with a positive value. -/
def payback (ctx : ℚ → ℚ) (values : EconomicInput) (probabilityAdjusted : ℚ) :
    Except EconomicsError (Option ℚ) :=
  match values.benefitPeriodDays with
  | some days =>
    if 0 < days ∧ 0 < probabilityAdjusted then
      (money (ctx (values.recoveryCost / ctx (probabilityAdjusted / days)))).map some
    else .ok none
  | none => .ok none

def calculateEconomics (ctx : ℚ → ℚ) (values : EconomicInput) :
    Except EconomicsError EconomicResult := do
  ensure (¬ (values.grossExposure < 0 ∨ values.recoveryCost < 0))
    (.rule "Exposure and recovery cost cannot be negative")
  let addressability ← rate "addressability_rate" values.addressabilityRate
  let recoverability ← rate "recoverability_rate" values.recoverabilityRate
  let success ← rate "success_probability" values.successProbability
  let addressable ← money (ctx (values.grossExposure * addressability))
  let recoverable ← money (ctx (addressable * recoverability))
  let probabilityAdjusted ← money (ctx (recoverable * success))
  let net ← money (ctx (probabilityAdjusted - values.recoveryCost))
  let roi ←
    if values.recoveryCost = 0 then pure none
    else (money (ctx (net / values.recoveryCost))).map some
  let paybackDays ← payback ctx values probabilityAdjusted
  let gross ← money values.grossExposure
  let cost ← money values.recoveryCost
  return {
    grossExposure := gross
    addressableExposure := addressable
    expectedRecoverableValue := recoverable
    probabilityAdjustedValue := probabilityAdjusted
    recoveryCost := cost
    expectedNetBenefit := net
    expectedRoi := roi
    paybackPeriodDays := paybackDays
    zeroCostPolicy := if values.recoveryCost = 0 then "roi_not_applicable" else "standard" }

/-- `normalize_weights`; a profile always has all nine weights. -/
def normalizeWeights (ctx : ℚ → ℚ) (weights : Factors) : Except EconomicsError Factors := do
  ensure (∀ value ∈ weights.toList, 0 ≤ value) (.rule "Priority weights cannot be negative")
  ensure (weights.total ctx ≠ 0) (.rule "Priority weights cannot total zero")
  return weights.map fun value => ctx (value / weights.total ctx)

/-- `_bounded`. -/
def bounded (value : ℚ) : ℚ := min 1 (max 0 value)

/-- The category of a score, with the blocks that outrank it. -/
def priorityCategory (values : PriorityInput) (score : ℚ) : PriorityCategory :=
  if values.dependencyReady = false ∨ values.resourceReady = false then .blocked
  else if values.confidenceScore < 2 / 10 then .insufficientEvidence
  else if values.expectedNetBenefit < 0 then .notEconomic
  else if 80 ≤ score then .critical
  else if 65 ≤ score then .high
  else if 45 ≤ score then .medium
  else if 25 ≤ score then .low
  else .monitor

/-- The score is quantized to two places, half up. -/
def scoreQuantize (value : ℚ) : Except EconomicsError ℚ :=
  orFail (quantize halfUp 2 value) .invalidOperation

def calculatePriority (ctx : ℚ → ℚ) (values : PriorityInput) (weights : Factors) :
    Except EconomicsError PriorityResult := do
  let normalizedWeights ← normalizeWeights ctx weights
  let urgency ← rate "urgency_score" values.urgencyScore
  let confidence ← rate "confidence_score" values.confidenceScore
  let feasibility ← rate "feasibility_score" values.feasibilityScore
  let alignment ← rate "strategic_alignment_score" values.strategicAlignmentScore
  let risk ← rate "risk_score" values.riskScore
  let factors : Factors := {
    economicValue := bounded (ctx (values.probabilityAdjustedValue / 100000))
    netBenefit := bounded (ctx (max 0 values.expectedNetBenefit / 100000))
    roi := bounded (ctx (values.expectedRoi.getD 0 / 5))
    payback := match values.paybackPeriodDays with
      | none => 5 / 10
      | some days => bounded (ctx (1 - ctx (days / 365)))
    urgency := urgency
    confidence := confidence
    feasibility := feasibility
    strategicAlignment := alignment
    risk := ctx (1 - risk) }
  let contributions := (factors.mul normalizedWeights).map ctx
  let score ← scoreQuantize (ctx (contributions.total ctx * 100))
  return {
    score
    category := priorityCategory values score
    normalizedFactors := factors
    contributions
    weights := normalizedWeights
    limitations :=
      (if values.confidenceScore < 4 / 10 then ["LOW_CONFIDENCE"] else []) ++
        (if values.dependencyReady then [] else ["DEPENDENCIES_BLOCKED"]) ++
        (if values.resourceReady then [] else ["RESOURCES_BLOCKED"]) }

def requireTransition (current requested : OpportunityStatus) : Except EconomicsError Unit :=
  ensure (requested ∈ allowedStatusTransitions current)
    (.rule ("Invalid opportunity transition: " ++ current.value ++ " -> " ++ requested.value))

inductive InclusionStatus
  | included
  | excluded
  | superseded
  | conditional
  deriving DecidableEq

def portfolioIncludedValue (ctx : ℚ → ℚ) (probabilityAdjustedValue allocationPercentage : ℚ)
    (inclusionStatus : InclusionStatus) : Except EconomicsError ℚ :=
  if inclusionStatus ≠ .included then .ok 0
  else do
    let allocation ← rate "allocation_percentage" allocationPercentage
    money (ctx (probabilityAdjustedValue * allocation))

end Intel4Ops.Economics

import Intel4Ops.Revenue.Lines

/-!
# Revenue variance

`run_revenue_amount_variance`: the two sides of every subject are compared, and a material shortfall
of the actual side is handed to the publisher. `requestFor_iff` says of which sides a shortfall is
published, and `mem_reached_iff` which requests can reach the publisher.
-/

namespace Intel4Ops.Revenue

open Lib Lib.Decimal
open Findings (CanonicalEvidenceCompletenessResult EvidenceType FindingSeverity FindingType
  FindingValueType)

/-! ## Currencies -/

/-- `_side_currency`: the one known currency of a side, and whether there is at most one. -/
def sideCurrency (lines : List AmountLine) : Option String × Bool :=
  match (lines.filterMap (·.currency)).dedup with
  | [] => (none, true)
  | [currency] => (some currency, true)
  | _ => (none, false)

inductive CurrencyComparability
  | sameKnown | differentKnown | unknownBoth | mixedKnownUnknown
  deriving DecidableEq

/-- `COMPARABLE_CURRENCY_STATES` -/
def CurrencyComparability.isComparable : CurrencyComparability → Bool
  | sameKnown | unknownBoth => true
  | differentKnown | mixedKnownUnknown => false

/-- `classify_currency_comparability` -/
def classifyCurrencyComparability : Option String → Option String → CurrencyComparability
  | some expected, some actual => if expected = actual then .sameKnown else .differentKnown
  | none, none => .unknownBoth
  | _, _ => .mixedKnownUnknown

/-- The comparability of two sides; an actual side without lines is zero in any currency. -/
def comparability (expectedCurrency actualCurrency : Option String)
    (actualLines : List AmountLine) : CurrencyComparability :=
  if actualLines.isEmpty then
    match orElse expectedCurrency none with
    | some _ => .sameKnown
    | none => .unknownBoth
  else classifyCurrencyComparability expectedCurrency actualCurrency

/-! ## Amounts -/

/-- `DEFAULT_RELATIVE_TOLERANCE` -/
def defaultRelativeTolerance : Extended := .finite (2 / 100)

/-- `DEFAULT_ABSOLUTE_TOLERANCE` -/
def defaultAbsoluteTolerance : Extended := .finite 1

/-- The amounts of a subject that is short. -/
structure Amounts where
  (expected actual variance ratio : Extended)

def sideSum (lines : List AmountLine) : Except Raised Extended :=
  orFail (Extended.sum (lines.map (·.amount))) .invalidOperation

/-- The expected amount is positive, and the actual one falls short of it by more than the
tolerance. -/
def materialShortfall (expected actual : Extended) : Except Raised (Option Amounts) :=
  if expected.le (.finite 0) then .ok none
  else do
    let relative ← product expected defaultRelativeTolerance
    let variance ← orFail (expected.sub actual) .invalidOperation
    if variance.le (defaultAbsoluteTolerance.max relative) then return none
    else do
      let ratio ← orFail (variance.div expected) .invalidOperation
      return some ⟨expected, actual, variance, ratio⟩

/-- `shortfall_type` -/
def Amounts.shortfallType (amounts : Amounts) : String :=
  if amounts.actual = .finite 0 then "full_billing_shortfall" else "partial_billing_shortfall"

def Amounts.severity (amounts : Amounts) : FindingSeverity :=
  if amounts.actual = .finite 0 ∨ (Extended.finite (1 / 2)).le amounts.ratio = true then .high
  else .medium

/-! ## Requests -/

/-- The two sides of a comparison. -/
inductive Side
  | expected | actual

/-- The role in `reference_type`. -/
def Side.role : Side → String
  | expected => "expected"
  | actual => "actual"

/-- `role.title()` -/
def Side.title : Side → String
  | expected => "Expected"
  | actual => "Actual"

/-- The evidence of a line. -/
structure AmountEvidence where
  evidenceType : EvidenceType := .calculationTrace
  (referenceType referenceId : String)
  datasetId : UUID
  label : String
  comparisonValue : Extended
  comparisonCurrency : Option String
  basis : AmountBasis

/-- A request to the publisher. -/
structure VarianceRequest where
  (organizationId primaryDatasetId trustAssessmentId : UUID)
  definitionCode : String := "REVENUE-AMOUNT-VARIANCE"
  definitionVersion : String := "1.0"
  ruleConditionCode : String
  affectedRecordCount : ℕ
  domainCode : String := "cross_domain"
  severity : FindingSeverity
  findingType : FindingType := .leakage
  contributingDatasets : Finset UUID
  (subjectEntityType subjectKey : String)
  domains : List String := ["revenue"]
  economicStatus : String := "governed_pending"
  exposureValue : Extended
  exposureValueType : FindingValueType
  exposureCurrency : Option String
  limitations : List String
  supportingEvidence : List AmountEvidence
  canonicalEvidenceCompleteness : Option CanonicalEvidenceCompletenessResult

section Requests

variable {Cell : Type} (env : Env Cell) (pass : Pass Cell)

/-- The currency that the schema of evidence makes of a currency. -/
def acceptedCurrency (currency : String) : Except Raised String := do
  let normalized := env.upper currency
  ensure (normalized.length = 3 ∧ normalized.toList.all (·.toNat < 128) = true ∧
    env.isAlpha normalized = true) .validation
  return normalized

/-- The evidence of a line, unless the schema refuses its reference, amount or currency. -/
def evidenceItem (side : Side) (line : AmountLine) : Except Raised AmountEvidence := do
  let referenceId := line.datasetLabel ++ ":" ++ line.rowReference
  ensure (referenceId.length ≤ 255) .validation
  ensure (∀ negative, line.amount ≠ .infinite negative) .validation
  let currency ← line.currency.mapM (acceptedCurrency env)
  return {
    referenceType := side.role ++ "_amount_line"
    referenceId
    datasetId := line.datasetId
    label := side.title ++ " amount line (" ++ line.basis.code ++ ")"
    comparisonValue := line.amount
    comparisonCurrency := currency
    basis := line.basis }

/-- `_line_evidence` -/
def lineEvidence (side : Side) (lines : List AmountLine) : Except Raised (List AmountEvidence) :=
  (lines.take 20).mapM (evidenceItem env side)

def datasetsOf (lines : List AmountLine) : Finset UUID :=
  (lines.flatMap fun line => line.datasetId :: line.additionalDatasetIds).toFinset

/-- The limitations of a finding. -/
def limitations (comparability : CurrencyComparability) : List String :=
  ("Estimated shortfall based on governed canonical consumption/rate and invoice evidence -- " ++
    "not a verified or recovered value.") ::
  if comparability = .sameKnown then []
  else ["Currency was not confirmed in the source data on either side; " ++
    "the amounts below are compared as same-unit magnitudes only, never assumed to be USD."]

/-- The request of a subject that is short; its first expected line is the primary one, which needs
a trust assessment. -/
def shortfallRequest (subject : String) (expected actual : List AmountLine)
    (comparability : CurrencyComparability) (amounts : Amounts) :
    Except Raised (Option VarianceRequest) := do
  let expectedEvidence ← lineEvidence env .expected expected
  let actualEvidence ← lineEvidence env .actual actual
  return expected.head?.bind fun primary => primary.trustAssessmentId.map fun trustAssessmentId => {
    organizationId := pass.organizationId
    primaryDatasetId := primary.datasetId
    trustAssessmentId
    ruleConditionCode := amounts.shortfallType
    affectedRecordCount := expected.length + actual.length
    severity := amounts.severity
    contributingDatasets := (datasetsOf (expected ++ actual)).erase primary.datasetId
    subjectEntityType := pass.subjectEntityType
    subjectKey := subject
    exposureValue := amounts.variance
    exposureValueType := if comparability = .sameKnown then .currency else .decimal
    exposureCurrency := if comparability = .sameKnown then (sideCurrency expected).1 else none
    limitations := limitations comparability
    supportingEvidence := expectedEvidence ++ actualEvidence
    canonicalEvidenceCompleteness := primary.canonicalEvidenceCompleteness }

/-- What the loop makes of a subject: a request, unless it goes on without one. -/
def requestFor (subject : String) (expected actual : List AmountLine) :
    Except Raised (Option VarianceRequest) :=
  let comparability := comparability (sideCurrency expected).1 (sideCurrency actual).1 actual
  if (sideCurrency expected).2 = false ∨ (sideCurrency actual).2 = false ∨
      comparability.isComparable = false then .ok none
  else do
    let expectedAmount ← sideSum expected
    let actualAmount ← sideSum actual
    match ← materialShortfall expectedAmount actualAmount with
    | none => return none
    | some amounts => shortfallRequest env pass subject expected actual comparability amounts

def CollectedLines.expectedOf (collected : CollectedLines) (subject : String) : List AmountLine :=
  linesOf subject collected.expected

def CollectedLines.actualOf (collected : CollectedLines) (subject : String) : List AmountLine :=
  linesOf subject collected.actual

/-- The subjects with expected lines, sorted. -/
def CollectedLines.subjects (collected : CollectedLines) : List String :=
  (collected.expected.map (·.1)).dedup.insertionSort (· ≤ ·)

/-- What the loop makes of a subject of the collected lines. -/
def CollectedLines.requestFor (collected : CollectedLines) (subject : String) :
    Except Raised (Option VarianceRequest) :=
  Revenue.requestFor env pass subject (collected.expectedOf subject) (collected.actualOf subject)

end Requests

/-! ## The loop -/

/-- The requests that are handed to the publisher, up to the first exception. -/
def publishAll (publish : VarianceRequest → Except Raised Unit)
    (requestFor : String → Except Raised (Option VarianceRequest)) :
    List String → List VarianceRequest
  | [] => []
  | subject :: subjects =>
    match requestFor subject with
    | .error _ => []
    | .ok none => publishAll publish requestFor subjects
    | .ok (some request) =>
      request :: match publish request with
        | .error _ => []
        | .ok _ => publishAll publish requestFor subjects

section Run

variable {Cell : Type} (env : Env Cell) (publish : VarianceRequest → Except Raised Unit)
  (pass : Pass Cell)

/-- `run_revenue_amount_variance`: the requests that reach the publisher. -/
def runRevenueAmountVariance : List VarianceRequest :=
  if pass.datasets.isEmpty ∨ pass.eligibleSubjectKeys.isEmpty then []
  else
    match collectLines env pass with
    | .error _ => []
    | .ok collected =>
      if collected.expectedSideHasGovernedSource = false ∨
          collected.actualSideHasGovernedSource = false then []
      else publishAll publish (collected.requestFor env pass) collected.subjects

end Run

end Intel4Ops.Revenue

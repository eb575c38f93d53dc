import Intel4Ops.Revenue.Derived

/-!
# Contract rate compliance

`run_contract_rate_compliance`: the rates that rows apply are compared with the rates of their
contracts. A row applies a rate explicitly, or a rate is derived from the bill of its subject.
-/

namespace Intel4Ops.Revenue

open Lib Lib.Decimal
open Findings (CanonicalEvidenceCompletenessResult)

/-! ## Findings -/

/-- A rate that was applied, with the contract rate that it is compared with. -/
structure RateComparison where
  definitionVersion : String
  datasetId : UUID
  datasetLabel : String
  trustAssessmentId : Option UUID
  (sourceRow rowReference subjectKey contractKey : String)
  actualRate : Extended
  quantity : Option Extended
  contractRate : GovernedRateEvidence
  actualEvidence : List RateEvidence
  contributingDatasetIds : Finset UUID
  completeness : Option CanonicalEvidenceCompletenessResult

/-- A request to the publisher. The actual rate comes from the source row in the primary dataset. -/
structure RateFinding where
  (organizationId primaryDatasetId trustAssessmentId : UUID)
  definitionCode : String := "CONTRACT-RATE-COMPLIANCE"
  (definitionVersion ruleConditionCode subjectEntityType subjectKey contractKey sourceRow
    rowReference : String)
  actualRate : Extended
  contractRate : GovernedRateEvidence
  exposureValue : Option Extended
  exposureCurrency : Option String
  contributingDatasets : Finset UUID
  supportingEvidence : List RateEvidence
  canonicalEvidenceCompleteness : Option CanonicalEvidenceCompletenessResult

section Findings

variable {Cell : Type} (env : Env Cell) (pass : CompliancePass Cell)

/-- The absolute value. -/
def magnitude (a : Extended) : Extended := if a.isNegative then a.neg else a

def comparisonEvidence (c : RateComparison) (absolute : Extended) (exposure : Option Extended) :
    Except Raised (List RateEvidence) :=
  let unit := c.contractRate.unit
  let currency := c.contractRate.currency
  let row := c.datasetLabel ++ ":" ++ c.rowReference
  let contractRow := c.contractRate.datasetLabel ++ ":" ++ c.contractRate.rowReference
  let exposures : List RateEvidence := exposure.elim [] fun value =>
    [{ referenceType := "rate_variance_exposure", referenceId := row, datasetId := c.datasetId,
       comparisonValue := value, comparisonCurrency := currency }]
  let compared : List RateEvidence :=
    [{ referenceType := "applicable_contract_rate_line", referenceId := contractRow,
       datasetId := c.contractRate.datasetId, comparisonValue := c.contractRate.amount,
       comparisonUnit := some unit, comparisonCurrency := currency },
     { referenceType := "rate_comparison",
       referenceId := toString c.datasetId ++ ":" ++ c.rowReference ++ ":" ++
         toString c.contractRate.datasetId ++ ":" ++ c.contractRate.rowReference,
       datasetId := c.datasetId, comparisonValue := absolute, comparisonUnit := some unit,
       comparisonCurrency := currency }]
  (c.actualEvidence ++ compared ++ exposures).mapM (rateEvidence env)

/-- The variance relative to the contract rate, if that is not zero. -/
def relativeVariance (absolute rate : Extended) : Except Raised (Option Extended) :=
  if rate = .finite 0 then .ok none
  else (orFail (absolute.div rate) .invalidOperation).map some

/-- The finding of a comparison with a variance, if its dataset has a trust assessment. -/
def varianceFinding (c : RateComparison) (variance : Extended) :
    Except Raised (Option RateFinding) := do
  let absolute := magnitude variance
  let _ ← relativeVariance absolute c.contractRate.amount
  let exposure ← c.quantity.mapM (product absolute)
  let evidence ← comparisonEvidence env c absolute exposure
  return c.trustAssessmentId.map fun trustAssessmentId => {
    organizationId := pass.organizationId
    primaryDatasetId := c.datasetId
    trustAssessmentId
    definitionVersion := c.definitionVersion
    ruleConditionCode :=
      if variance.isNegative then "actual_rate_below_contract" else "actual_rate_above_contract"
    subjectEntityType := pass.subjectEntityType
    subjectKey := c.subjectKey
    contractKey := c.contractKey
    sourceRow := c.sourceRow
    rowReference := c.rowReference
    actualRate := c.actualRate
    contractRate := c.contractRate
    exposureValue := exposure
    exposureCurrency := exposure.bind fun _ => c.contractRate.currency
    contributingDatasets := insert c.contractRate.datasetId c.contributingDatasetIds
    supportingEvidence := evidence
    canonicalEvidenceCompleteness := c.completeness }

/-- The finding of a comparison, if the rates differ. -/
def comparisonFinding (c : RateComparison) : Except Raised (Option RateFinding) := do
  let variance ← orFail (c.actualRate.sub c.contractRate.amount) .invalidOperation
  if variance = .finite 0 then return none else varianceFinding env pass c variance

/-! ## Explicit rates -/

def explicitComparison (s : AppliedRow Cell) (actualField unitField currencyField : String) :
    Option RateComparison := do
  let actualRate ← env.toDecimal (s.row.cell actualField)
  guard (actualRate.isNegative = false)
  let unit ← env.text (s.row.cell unitField)
  let currency ← env.currencyCode (s.row.cell currencyField)
  let rowContract := (s.dataset.dataframe.present s.dataset.contractIdField).bind fun field =>
    env.text (s.row.cell field)
  let contractKey ← rowContract <|> contractOfSubject env pass s.subject
  let contractRate ← resolveApplicableRate env pass.rateDatasets contractKey (s.observedAt env)
    (some unit) (some currency)
  let rateCurrency ← contractRate.currency
  guard contractRate.rateBasis.isSome
  return {
    definitionVersion := "1.0"
    datasetId := s.dataset.datasetId
    datasetLabel := s.dataset.datasetLabel
    trustAssessmentId := s.dataset.trustAssessmentId
    sourceRow := s.row.index
    rowReference := s.row.index
    subjectKey := s.subject
    contractKey
    actualRate
    quantity := ((s.dataset.dataframe.present s.dataset.quantityField).bind fun field =>
      env.toDecimal (s.row.cell field)).filter fun q => q ≠ .finite 0 ∧ q.isNegative = false
    contractRate
    actualEvidence := [{
      referenceType := "actual_applied_rate_line"
      referenceId := s.dataset.datasetLabel ++ ":" ++ s.row.index
      datasetId := s.dataset.datasetId
      comparisonValue := actualRate
      comparisonUnit := some contractRate.unit
      comparisonCurrency := some rateCurrency }]
    contributingDatasetIds := ∅
    completeness := s.dataset.canonicalEvidenceCompleteness }

/-- The explicit comparisons of a dataset with columns for rate, unit and currency. -/
def explicitComparisonsOf (ds : AppliedRateDatasetFields Cell) : List RateComparison :=
  match ds.dataframe.present ds.actualRateField, ds.dataframe.present ds.unitField,
      ds.dataframe.present ds.currencyField with
  | some actualField, some unitField, some currencyField =>
    (appliedRows env pass ds).filterMap fun s =>
      explicitComparison env pass s actualField unitField currencyField
  | _, _, _ => []

def explicitComparisons : List RateComparison :=
  pass.datasets.flatMap (explicitComparisonsOf env pass)

end Findings

/-! ## Comparisons of derived rates -/

section Derived

variable {Cell : Type} (env : Env Cell) (pass : CompliancePass Cell)

/-- The comparison of a derived rate, if one rate of its contract applies. -/
def derivedComparison (d : DerivedRate Cell) : Option RateComparison := do
  let contractRate ← resolveApplicableRate env pass.rateDatasets d.contractKey
    (d.billing.source.observedAt env) (some d.unit) (some d.currency)
  guard contractRate.currency.isSome
  guard contractRate.rateBasis.isSome
  return {
    definitionVersion := "1.1"
    datasetId := d.billing.source.dataset.datasetId
    datasetLabel := d.billing.source.dataset.datasetLabel
    trustAssessmentId := d.billing.source.dataset.trustAssessmentId
    sourceRow := d.billing.source.row.index
    rowReference := "derived:" ++ d.billing.source.row.index
    subjectKey := d.subjectKey
    contractKey := d.contractKey
    actualRate := d.actualRate
    quantity := some d.quantity
    contractRate
    actualEvidence := d.evidence
    contributingDatasetIds := d.contributingDatasetIds
    completeness := d.billing.source.dataset.canonicalEvidenceCompleteness }

/-- The comparisons of the derived rates of subjects without an explicit one. -/
def derivedComparisons : Except Raised (List RateComparison) :=
  (deriveActualAppliedRates env pass).map fun rates =>
    (rates.filter fun d => d.subjectKey ∉ (explicitComparisons env pass).map (·.subjectKey)).filterMap
      (derivedComparison env pass)

/-! ## A pass -/

/-- What `run_contract_rate_compliance` makes of its comparisons, in order; the explicit ones come
first, and an exception ends the run. -/
def complianceOutcomes : List (Except Raised (Option RateFinding)) :=
  if pass.datasets.isEmpty ∨ pass.eligibleSubjectKeys = ∅ ∨ pass.rateDatasets.isEmpty then []
  else
    (explicitComparisons env pass).map (comparisonFinding env pass) ++
      match derivedComparisons env pass with
      | .error e => [.error e]
      | .ok comparisons => comparisons.map (comparisonFinding env pass)

end Derived

end Intel4Ops.Revenue

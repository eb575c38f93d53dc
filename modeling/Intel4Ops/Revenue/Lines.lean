import Intel4Ops.Findings.Publisher
import Intel4Ops.Revenue.Rates

/-!
# Amount lines

`_collect_lines` of `revenue_variance_intelligence_service`: what the rows of the datasets
contribute to the expected and to the actual side of each subject. A row contributes a quantity at a
rate, a reference cost, and a billed amount, each where its fields are there and its cells parse.
-/

namespace Intel4Ops.Revenue

open Lib Lib.Decimal
open Findings (CanonicalEvidenceCompletenessResult)

/-! ## Datasets -/

structure DatasetConceptFields (Cell : Type) where
  datasetId : UUID
  datasetLabel : String
  dataframe : DataFrame Cell
  trustAssessmentId : Option UUID
  (subjectIdField quantityField unitPriceField invoiceAmountField costAmountField currencyField
    : Option String)
  contractIdField : Option String := none
  eventTimestampField : Option String := none
  unitField : Option String := none
  implicitQuantityUnit : Option String := none
  canonicalEvidenceCompleteness : Option CanonicalEvidenceCompletenessResult := none
  isRateCardShaped : Bool := false

/-- Where an amount comes from. -/
inductive AmountBasis
  | quantityXUnitPrice | quantityXCrossDatasetRate | referenceCostAmount | invoiceAmount
  | unitPriceAsFlatAmount

def AmountBasis.code : AmountBasis → String
  | quantityXUnitPrice => "quantity_x_unit_price"
  | quantityXCrossDatasetRate => "quantity_x_cross_dataset_rate"
  | referenceCostAmount => "reference_cost_amount"
  | invoiceAmount => "invoice_amount"
  | unitPriceAsFlatAmount => "unit_price_as_flat_amount"

/-- `_AmountLine` -/
structure AmountLine where
  datasetId : UUID
  datasetLabel : String
  trustAssessmentId : Option UUID
  canonicalEvidenceCompleteness : Option CanonicalEvidenceCompletenessResult
  rowReference : String
  amount : Extended
  currency : Option String
  basis : AmountBasis
  additionalDatasetIds : List UUID := []

/-- Why a pass over the subjects ends early: a decimal operation without a result, or an evidence
item that its schema refuses. -/
inductive Raised
  | invalidOperation
  | validation

/-- The arguments of `run_revenue_amount_variance`. -/
structure Pass (Cell : Type) where
  organizationId : UUID
  datasets : List (DatasetConceptFields Cell)
  eligibleSubjectKeys : List String
  rateDatasets : List (RateDatasetFields Cell) := []
  subjectEntityType : String := "work_order"

namespace DatasetConceptFields

variable {Cell : Type} (ds : DatasetConceptFields Cell)

def subject : Option String := ds.dataframe.present ds.subjectIdField

def quantity : Option String := ds.dataframe.present ds.quantityField

def unitPrice : Option String := ds.dataframe.present ds.unitPriceField

def invoiceAmount : Option String := ds.dataframe.present ds.invoiceAmountField

def costAmount : Option String := ds.dataframe.present ds.costAmountField

/-- `has_unit_price_as_flat_amount`: a price without anything that it could be the price of. -/
def HasUnitPriceAsFlatAmount : Prop :=
  ds.invoiceAmount = none ∧ ds.costAmount = none ∧ ds.unitPrice.isSome = true ∧
    ds.quantity = none ∧ ds.isRateCardShaped = false

instance : Decidable ds.HasUnitPriceAsFlatAmount := inferInstanceAs (Decidable (_ ∧ _ ∧ _ ∧ _ ∧ _))

def billed : Option (String × AmountBasis) :=
  match ds.invoiceAmount with
  | some field => some (field, .invoiceAmount)
  | none =>
    if ds.HasUnitPriceAsFlatAmount then ds.unitPrice.map fun field => (field, .unitPriceAsFlatAmount)
    else none

/-- The dataset has governed evidence of expected amounts. -/
def SuppliesExpected (rateDatasets : List (RateDatasetFields Cell)) : Prop :=
  ds.quantity.isSome = true ∧ ds.unitPrice.isSome = true ∨ ds.costAmount.isSome = true ∨
    ds.quantity.isSome = true ∧ rateDatasets.isEmpty = false

instance (rateDatasets : List (RateDatasetFields Cell)) :
    Decidable (ds.SuppliesExpected rateDatasets) :=
  inferInstanceAs (Decidable (_ ∧ _ ∨ _ ∨ _ ∧ _))

/-- The dataset has governed evidence of billed amounts. -/
def SuppliesActual : Prop := ds.invoiceAmount.isSome = true ∨ ds.HasUnitPriceAsFlatAmount

instance : Decidable ds.SuppliesActual := inferInstanceAs (Decidable (_ ∨ _))

end DatasetConceptFields

/-! ## Rows -/

/-- A row of an eligible subject, in a dataset that supplies amounts. -/
structure SourceRow (Cell : Type) where
  dataset : DatasetConceptFields Cell
  row : Row Cell
  subject : String

section Rows

variable {Cell : Type} (env : Env Cell) (pass : Pass Cell)

def eligibleSubject (value : Cell) : Option String :=
  if env.blank value then none
  else if env.str value ∈ pass.eligibleSubjectKeys then some (env.str value) else none

/-- The rows that the loop goes through. -/
def sourceRows : List (SourceRow Cell) :=
  pass.datasets.flatMap fun ds =>
    match ds.subject with
    | none => []
    | some field =>
      if ds.SuppliesExpected pass.rateDatasets ∨ ds.SuppliesActual then
        ds.dataframe.rows.filterMap fun row =>
          (eligibleSubject env pass (row.cell field)).map fun subject => ⟨ds, row, subject⟩
      else []

/-- `_row_currency` -/
def SourceRow.currency (s : SourceRow Cell) : Option String := do
  let field ← s.dataset.dataframe.present s.dataset.currencyField
  guard (env.blank (s.row.cell field) = false)
  let text := env.upper (env.strip (env.str (s.row.cell field)))
  guard (text.length = 3 ∧ env.isAlpha text = true)
  return text

/-- The subjects and contracts that stand in one row. -/
def relationships : List (String × String) :=
  pass.datasets.flatMap fun ds =>
    match ds.subject, ds.dataframe.present ds.contractIdField with
    | some subjectField, some contractField =>
      (ds.dataframe.rows.filter fun row =>
        env.notna (row.cell subjectField) && env.notna (row.cell contractField)).map fun row =>
          (env.str (row.cell subjectField), env.str (row.cell contractField))
    | _, _ => []

def contractBySubject (subject : String) : Option String :=
  match (((relationships env pass).filter (·.1 = subject)).map (·.2)).dedup with
  | [contract] => some contract
  | _ => none

/-- The contract whose rates apply to a row; without another one, the subject itself. -/
def contractKey (s : SourceRow Cell) : String :=
  match (s.dataset.dataframe.present s.dataset.contractIdField).filter
      fun field => env.notna (s.row.cell field) with
  | some field => env.str (s.row.cell field)
  | none => (contractBySubject env pass s.subject).getD s.subject

def SourceRow.eventAt (s : SourceRow Cell) : Option Instant :=
  (s.dataset.dataframe.present s.dataset.eventTimestampField).bind fun field =>
    env.toDatetime (env.str (s.row.cell field))

def SourceRow.quantityUnit (s : SourceRow Cell) : Option String :=
  orElse s.dataset.implicitQuantityUnit
    (((s.dataset.dataframe.present s.dataset.unitField).filter
      fun field => env.notna (s.row.cell field)).map fun field => env.str (s.row.cell field))

/-- The rate that applies to the quantity of a row. -/
def rateOf (s : SourceRow Cell) : Option GovernedRateEvidence :=
  resolveApplicableRate env pass.rateDatasets (contractKey env pass s) (s.eventAt env)
    (s.quantityUnit env) (s.currency env)

/-! ## Lines -/

/-- The line of an amount that the row itself carries. -/
def SourceRow.line (s : SourceRow Cell) (amount : Extended) (basis : AmountBasis) : AmountLine where
  datasetId := s.dataset.datasetId
  datasetLabel := s.dataset.datasetLabel
  trustAssessmentId := s.dataset.trustAssessmentId
  canonicalEvidenceCompleteness := s.dataset.canonicalEvidenceCompleteness
  rowReference := s.row.index
  amount
  currency := s.currency env
  basis

/-- The line of a quantity at the rate of another dataset. -/
def SourceRow.rateLine (s : SourceRow Cell) (rate : GovernedRateEvidence) (amount : Extended) :
    AmountLine :=
  { s.line env amount .quantityXCrossDatasetRate with
    datasetLabel := s.dataset.datasetLabel ++ " + " ++ rate.datasetLabel
    rowReference := s.row.index ++ "->" ++ rate.rowReference
    currency := orElse rate.currency (s.currency env)
    additionalDatasetIds := [rate.datasetId] }

def SourceRow.decimal (s : SourceRow Cell) (field : String) : Option Extended :=
  env.toDecimal (s.row.cell field)

/-- A product, unless it is undefined. -/
def product (a b : Extended) : Except Raised Extended := orFail (a.mul b) .invalidOperation

/-- The quantity of a row at its unit price, or at the rate of another dataset. -/
def quantityLine (s : SourceRow Cell) : Except Raised (Option AmountLine) :=
  match s.dataset.quantity, s.dataset.unitPrice with
  | some quantityField, some priceField =>
    match s.decimal env quantityField, s.decimal env priceField with
    | some qty, some price =>
      (product qty price).map fun amount => some (s.line env amount .quantityXUnitPrice)
    | _, _ => .ok none
  | some quantityField, none =>
    match s.decimal env quantityField, rateOf env pass s with
    | some qty, some rate =>
      (product qty rate.amount).map fun amount => some (s.rateLine env rate amount)
    | _, _ => .ok none
  | none, _ => .ok none

def costLine (s : SourceRow Cell) : Option AmountLine :=
  s.dataset.costAmount.bind fun field =>
    (s.decimal env field).map fun cost => s.line env cost .referenceCostAmount

/-- What a row contributes to the expected side. -/
def expectedLines (s : SourceRow Cell) : Except Raised (List AmountLine) :=
  (quantityLine env pass s).map fun line => line.toList ++ (costLine env s).toList

/-- What a row contributes to the actual side. -/
def actualLine (s : SourceRow Cell) : Option AmountLine :=
  s.dataset.billed.bind fun (field, basis) =>
    (s.decimal env field).map fun billed => s.line env billed basis

/-- `_CollectedLines`; the lines stand with their subjects, in order. -/
structure CollectedLines where
  (expected actual : List (String × AmountLine))
  (expectedSideHasGovernedSource actualSideHasGovernedSource : Bool)

/-- `_collect_lines` -/
def collectLines : Except Raised CollectedLines := do
  let sources := sourceRows env pass
  let expected ← sources.mapM fun s =>
    (expectedLines env pass s).map fun lines => lines.map fun line => (s.subject, line)
  return {
    expected := expected.flatten
    actual := sources.flatMap fun s => (actualLine env s).toList.map fun line => (s.subject, line)
    expectedSideHasGovernedSource := pass.datasets.any fun ds =>
      ds.subject.isSome && decide (ds.SuppliesExpected pass.rateDatasets)
    actualSideHasGovernedSource := pass.datasets.any fun ds =>
      ds.subject.isSome && decide ds.SuppliesActual }

def linesOf (subject : String) (lines : List (String × AmountLine)) : List AmountLine :=
  (lines.filter (·.1 = subject)).map (·.2)

end Rows

end Intel4Ops.Revenue

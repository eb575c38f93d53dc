import Intel4Ops.Lib.Group
import Intel4Ops.Lib.Texts
import Intel4Ops.Revenue.Variance

/-!
# Derived rates

`derive_actual_applied_rates` of `contract_rate_compliance_service`: the rate that a subject was
billed at is derived from its one bill: the amount, less the components that are priced apart, by
the quantity. A subject with anything missing or ambiguous has no derived rate.
-/

namespace Intel4Ops.Revenue

open Lib Lib.Decimal
open Findings (CanonicalEvidenceCompletenessResult)

/-! ## Datasets -/

structure AppliedRateDatasetFields (Cell : Type) where
  datasetId : UUID
  datasetLabel : String
  dataframe : DataFrame Cell
  trustAssessmentId : Option UUID
  (subjectIdField actualRateField contractIdField unitField currencyField : Option String)
  eventTimestampField : Option String := none
  quantityField : Option String := none
  canonicalEvidenceCompleteness : Option CanonicalEvidenceCompletenessResult := none
  invoiceAmountField : Option String := none
  componentUnitPriceField : Option String := none
  implicitQuantityUnit : Option String := none
  isRateCardShaped : Bool := false

/-- The arguments of `run_contract_rate_compliance`. -/
structure CompliancePass (Cell : Type) where
  organizationId : UUID
  datasets : List (AppliedRateDatasetFields Cell)
  eligibleSubjectKeys : Finset String
  rateDatasets : List (RateDatasetFields Cell)
  subjectEntityType : String := "work_order"

def AppliedRateDatasetFields.withRows {Cell : Type} (ds : AppliedRateDatasetFields Cell)
    (rows : List (Row Cell)) : AppliedRateDatasetFields Cell :=
  { ds with dataframe := { ds.dataframe with rows } }

/-- A row of an eligible subject. The other rows of its dataset are left out, as nothing asks for
them there. -/
structure AppliedRow (Cell : Type) where
  dataset : AppliedRateDatasetFields Cell
  row : Row Cell
  subject : String

section Cells

variable {Cell : Type} (env : Env Cell)

/-- `_currency` -/
def Env.currencyCode (value : Cell) : Option String := do
  let text ← env.text value
  let normalized := env.upper text
  guard (normalized.length = 3 ∧ normalized.toList.all (·.toNat < 128) = true ∧
    env.isAlpha normalized = true)
  return normalized

/-- `_unit`, of a text without surrounding blanks -/
def Env.unitName (text : String) : String :=
  let normalized := env.lower text
  ((unitAliases.find? (·.1 = normalized)).map (·.2)).getD
    (String.ofList (normalized.toList.reverse.dropWhile (· = 's')).reverse)

/-- `_unit`, of a constant of the dataset -/
def Env.implicitUnitName (text : String) : Option String :=
  let stripped := env.strip text
  if stripped = "" then none else some (env.unitName stripped)

/-- `_timestamp` -/
def Env.observed (value : Cell) : Option Instant := (env.text value).bind env.toDatetime

variable (pass : CompliancePass Cell)

/-- The rows of a dataset whose subject is eligible. -/
def appliedRows (ds : AppliedRateDatasetFields Cell) : List (AppliedRow Cell) :=
  match ds.dataframe.present ds.subjectIdField with
  | none => []
  | some field => ds.dataframe.rows.filterMap fun row =>
      ((env.text (row.cell field)).filter (· ∈ pass.eligibleSubjectKeys)).map fun subject =>
        ⟨ds.withRows [], row, subject⟩

/-- The subjects and contracts that stand in one row. -/
def subjectContracts : List (String × String) :=
  pass.datasets.flatMap fun ds =>
    match ds.dataframe.present ds.subjectIdField, ds.dataframe.present ds.contractIdField with
    | some subjectField, some contractField => ds.dataframe.rows.filterMap fun row => do
        let subject ← env.text (row.cell subjectField)
        let contract ← env.text (row.cell contractField)
        return (subject, contract)
    | _, _ => []

/-- `_subject_contract_map`: the contract of a subject, if there is exactly one. -/
def subjectContractMap (subject : String) : Option String :=
  only ((group (·.1) (subjectContracts env pass) subject).map (·.2)).dedup

def contractOfSubject (subject : String) : Option String :=
  if pass.subjectEntityType = "contract" then some subject else subjectContractMap env pass subject

namespace AppliedRow

def observedAt (s : AppliedRow Cell) : Option Instant :=
  (s.dataset.dataframe.present s.dataset.eventTimestampField).bind fun field =>
    env.observed (s.row.cell field)

def currency (s : AppliedRow Cell) : Option String :=
  (s.dataset.dataframe.present s.dataset.currencyField).bind fun field =>
    env.currencyCode (s.row.cell field)

end AppliedRow

end Cells

/-! ## Evidence -/

/-- An evidence item of a comparison, less its texts. -/
structure RateEvidence where
  (referenceType referenceId : String)
  datasetId : UUID
  comparisonValue : Extended
  comparisonUnit : Option String := none
  comparisonCurrency : Option String := none

section Evidence

variable {Cell : Type} (env : Env Cell)

/-- An evidence item, unless its schema refuses the reference, the amount, the unit or the
currency. -/
def rateEvidence (item : RateEvidence) : Except Raised RateEvidence := do
  ensure (item.referenceId.length ≤ 255) .validation
  ensure (∀ negative, item.comparisonValue ≠ .infinite negative) .validation
  ensure (∀ unit ∈ item.comparisonUnit, unit.length ≤ 50) .validation
  let currency ← item.comparisonCurrency.mapM (acceptedCurrency env)
  return { item with comparisonCurrency := currency }

end Evidence

/-! ## Derived rates -/

/-- What a row says about one of the inputs: nothing, something that spoils its subject, or a
line. -/
inductive Reading (α : Type)
  | absent
  | invalid
  | line (value : α)

namespace Reading

variable {α : Type}

def isInvalid : Reading α → Bool
  | invalid => true
  | _ => false

def toOption : Reading α → Option α
  | line value => some value
  | _ => none

/-- A line, where all its inputs are there. -/
def ofOption : Option α → Reading α
  | some value => line value
  | none => invalid

end Reading

/-- `_DerivedInputLine`: a bill, a component or a quantity, with its row. -/
structure DerivedInputLine (Cell : Type) where
  source : AppliedRow Cell
  value : Extended
  currency : Option String := none
  unit : Option String := none
  componentAmount : Option Extended := none

section Derived

variable {Cell : Type} (env : Env Cell) (pass : CompliancePass Cell)

/-- A number that is there and not negative. -/
def nonNegative (value : Cell) : Option Extended :=
  (env.toDecimal value).filter fun a => a.isNegative = false

/-- The column of the target quantity: no component price next to it, and no explicit rate. -/
def targetQuantityField (ds : AppliedRateDatasetFields Cell) : Option String :=
  if (ds.dataframe.present ds.componentUnitPriceField).isNone ∧ ds.actualRateField = none then
    ds.dataframe.present ds.quantityField
  else none

def derivationRows : List (AppliedRow Cell) :=
  pass.datasets.flatMap fun ds =>
    if ds.isRateCardShaped = false ∧ ((ds.dataframe.present ds.invoiceAmountField).isSome ∨
        (ds.dataframe.present ds.componentUnitPriceField).isSome ∨
          (targetQuantityField ds).isSome) then appliedRows env pass ds
    else []

/-- The evidence behind a row is complete. -/
def AppliedRow.complete (s : AppliedRow Cell) : Bool :=
  (s.dataset.canonicalEvidenceCompleteness.map (·.satisfied)).getD true

def billingReading (s : AppliedRow Cell) : Reading (DerivedInputLine Cell) :=
  match s.dataset.dataframe.present s.dataset.invoiceAmountField with
  | none => .absent
  | some field => .ofOption do
      let value ← nonNegative env (s.row.cell field)
      let currency ← s.currency env
      return { source := s, value, currency := some currency }

/-- The component of a row; the product of its quantity and price may be undefined. -/
def componentReading (s : AppliedRow Cell) : Except Raised (Reading (DerivedInputLine Cell)) :=
  match s.dataset.dataframe.present s.dataset.componentUnitPriceField with
  | none => .ok .absent
  | some priceField =>
    match s.dataset.dataframe.present s.dataset.quantityField with
    | none => .ok .invalid
    | some quantityField =>
      match nonNegative env (s.row.cell quantityField), nonNegative env (s.row.cell priceField),
          s.currency env with
      | some quantity, some price, some currency =>
        (product quantity price).map fun amount => .line
          { source := s, value := quantity, currency := some currency,
            componentAmount := some amount }
      | _, _, _ => .ok .invalid

def AppliedRow.quantityUnit (s : AppliedRow Cell) : Option String :=
  match s.dataset.dataframe.present s.dataset.unitField with
  | some unitField => (env.text (s.row.cell unitField)).map env.unitName
  | none => s.dataset.implicitQuantityUnit.bind env.implicitUnitName

def quantityReading (s : AppliedRow Cell) : Reading (DerivedInputLine Cell) :=
  match targetQuantityField s.dataset with
  | none => .absent
  | some field => .ofOption do
      let value ← nonNegative env (s.row.cell field)
      let unit ← s.quantityUnit env
      return { source := s, value, unit := some unit }

/-- What the rows of the subjects say. -/
structure RowReadings (Cell : Type) where
  source : AppliedRow Cell
  (billing component quantity : Reading (DerivedInputLine Cell))

/-- The readings of a row; one without complete evidence spoils its subject. -/
def readRow (s : AppliedRow Cell) : Except Raised (RowReadings Cell) :=
  if s.complete = false then .ok ⟨s, .invalid, .invalid, .invalid⟩
  else (componentReading env s).map fun component =>
    ⟨s, billingReading env s, component, quantityReading env s⟩

def RowReadings.spoils (r : RowReadings Cell) : Bool :=
  r.billing.isInvalid || r.component.isInvalid || r.quantity.isInvalid

/-- Lines by dataset, in the order of their first rows. -/
def linesByDataset (lines : List (DerivedInputLine Cell)) : List (List (DerivedInputLine Cell)) :=
  (firsts (lines.map (·.source.dataset.datasetId))).map (group (·.source.dataset.datasetId) lines)

/-- The total of the quantities of one dataset and their unit, if it is one. -/
def quantitySummary (lines : List (DerivedInputLine Cell)) :
    Except Raised (Option (Extended × String)) :=
  match only (lines.filterMap (·.unit)).dedup with
  | none => .ok none
  | some unit => do
      let total ← orFail (Extended.sum (lines.map (·.value))) .invalidOperation
      return some (total, unit)

/-- The total quantity of a subject, if its datasets agree on it. -/
def agreedQuantity (groups : List (List (DerivedInputLine Cell))) :
    Except Raised (Option (Extended × String)) := do
  let summaries ← groups.mapM quantitySummary
  return if summaries.any Option.isNone then none else only (summaries.filterMap id).dedup

def sharedCurrency (billing : DerivedInputLine Cell) (components : List (DerivedInputLine Cell)) :
    Option String :=
  (only (billing.currency :: components.map (·.currency)).dedup).join

/-- What a rate is derived from. -/
structure RateInputs (Cell : Type) where
  billing : DerivedInputLine Cell
  (quantities components : List (DerivedInputLine Cell))
  quantity : Extended
  (unit currency : String)

/-- The inputs of a subject, if they are complete and agree: one bill, quantities, and components of
at most one dataset. -/
def rateInputs (rows : List (RowReadings Cell)) : Except Raised (Option (RateInputs Cell)) :=
  let quantityGroups := linesByDataset (rows.filterMap (·.quantity.toOption))
  let componentGroups := linesByDataset (rows.filterMap (·.component.toOption))
  match only (rows.filterMap (·.billing.toOption)) with
  | none => .ok none
  | some billing =>
    if rows.any (·.spoils) ∨ quantityGroups.isEmpty ∨ 1 < componentGroups.length then .ok none
    else (agreedQuantity quantityGroups).map fun agreed => do
      let (quantity, unit) ← agreed
      guard (quantity.le (.finite 0) = false)
      let components := componentGroups.head?.getD []
      let currency ← sharedCurrency billing components
      return { billing, quantities := quantityGroups.flatten, components, quantity, unit, currency }

/-- The billed amount less the components, if that is not negative. -/
def targetAmount (inputs : RateInputs Cell) : Except Raised (Option Extended) := do
  let componentAmount ←
    orFail (Extended.sum (inputs.components.filterMap (·.componentAmount))) .invalidOperation
  let target ← orFail (inputs.billing.value.sub componentAmount) .invalidOperation
  return if target.isNegative then none else some target

/-- `DerivedAppliedRateEvidence` -/
structure DerivedRate (Cell : Type) where
  billing : DerivedInputLine Cell
  (subjectKey contractKey : String)
  (actualRate targetAmount quantity : Extended)
  (unit currency : String)
  evidence : List RateEvidence
  contributingDatasetIds : Finset UUID

def DerivedInputLine.reference (line : DerivedInputLine Cell) : String :=
  line.source.dataset.datasetLabel ++ ":" ++ line.source.row.index

def derivedEvidence (subject : String) (billing : DerivedInputLine Cell)
    (quantities components : List (DerivedInputLine Cell)) (target rate : Extended)
    (unit currency : String) : Except Raised (List RateEvidence) :=
  let datasetId := billing.source.dataset.datasetId
  let billed : RateEvidence :=
    { referenceType := "derived_rate_billed_amount_source", referenceId := billing.reference,
      datasetId, comparisonValue := billing.value, comparisonCurrency := some currency }
  let measured : List RateEvidence := quantities.map fun line =>
    { referenceType := "derived_rate_quantity_source", referenceId := line.reference,
      datasetId := line.source.dataset.datasetId, comparisonValue := line.value,
      comparisonUnit := some unit }
  let priced : List RateEvidence := components.filterMap fun line =>
    line.componentAmount.map fun amount =>
      { referenceType := "derived_rate_non_target_component", referenceId := line.reference,
        datasetId := line.source.dataset.datasetId, comparisonValue := amount,
        comparisonCurrency := some currency }
  let results : List RateEvidence :=
    [{ referenceType := "derived_rate_target_amount",
       referenceId := subject ++ ":derived-target-amount", datasetId, comparisonValue := target,
       comparisonCurrency := some currency },
     { referenceType := "derived_actual_applied_rate",
       referenceId := subject ++ ":derived-actual-rate", datasetId, comparisonValue := rate,
       comparisonUnit := some unit, comparisonCurrency := some currency }]
  (billed :: measured ++ priced ++ results).mapM (rateEvidence env)

/-- The rate by which a quantity makes up a target amount. -/
def rateFrom (contractKey subject : String) (inputs : RateInputs Cell) (target : Extended) :
    Except Raised (DerivedRate Cell) := do
  let rate ← orFail (target.div inputs.quantity) .invalidOperation
  let evidence ← derivedEvidence env subject inputs.billing inputs.quantities inputs.components
    target rate inputs.unit inputs.currency
  return {
    billing := inputs.billing
    subjectKey := subject
    contractKey
    actualRate := rate
    targetAmount := target
    quantity := inputs.quantity
    unit := inputs.unit
    currency := inputs.currency
    evidence
    contributingDatasetIds := ((inputs.quantities ++ inputs.components).map
      (·.source.dataset.datasetId)).toFinset.erase inputs.billing.source.dataset.datasetId }

/-- The rate that is derived for a subject of a contract, from what its rows say. -/
def derivedRate (contract : Option String) (subject : String) (rows : List (RowReadings Cell)) :
    Except Raised (Option (DerivedRate Cell)) := do
  match ← rateInputs rows with
  | none => return none
  | some inputs =>
    match ← targetAmount inputs with
    | none => return none
    | some target =>
      match contract with
      | none => return none
      | some contractKey => (rateFrom env contractKey subject inputs target).map some

/-- `derive_actual_applied_rates` -/
def deriveActualAppliedRates : Except Raised (List (DerivedRate Cell)) := do
  let readings ← (derivationRows env pass).mapM (readRow env)
  let rates ← (pass.eligibleSubjectKeys.sort (· ≤ ·)).mapM fun subject =>
    derivedRate env (contractOfSubject env pass subject) subject
      (group (·.source.subject) readings subject)
  return rates.filterMap id

end Derived

end Intel4Ops.Revenue

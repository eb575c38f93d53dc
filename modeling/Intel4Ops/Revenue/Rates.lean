import Intel4Ops.Lib.Extended
import Intel4Ops.Lib.Ident

/-!
# Governed rates

`resolve_applicable_rate` of `governed_cross_dataset_rate`: the one rate row that applies to a
quantity, or none. A rate applies only where its currency is that of the quantity, or where neither
is known.
-/

namespace Intel4Ops.Revenue

open Lib Lib.Decimal

/-! ## Cells -/

/-- What pandas and the standard library make of cells and texts. -/
structure Env (Cell : Type) where
  /-- `value is None or (isinstance(value, float) and pd.isna(value))` -/
  (blank notna : Cell → Bool)
  str : Cell → String
  /-- `Decimal(str(pd.to_numeric(pd.Series([value]), errors="coerce").iloc[0]))`, if it is a
  number -/
  toNumeric : Cell → Option Extended
  /-- `pd.to_datetime(text, errors="coerce", utc=True)`, if it is an instant -/
  toDatetime : String → Option Instant
  (strip upper lower : String → String)
  isAlpha : String → Bool

/-- A missing value, a text or an integer. -/
inductive PlainCell
  | missing
  | text (value : String)
  | integer (value : ℤ)

/-- The standard library on missing values, upper-case words and integers, without instants. -/
def Env.plain : Env PlainCell where
  blank
    | .missing => true
    | _ => false
  notna
    | .missing => false
    | _ => true
  str
    | .missing => "nan"
    | .text value => value
    | .integer value => toString value
  toNumeric
    | .integer value => some (.finite value)
    | _ => none
  toDatetime _ := none
  strip text := text
  upper text := text
  lower text := text
  isAlpha text := text.toList.all (·.isAlpha)

/-- A row with its index; a cell is there for every column. -/
structure Row (Cell : Type) where
  index : String
  cell : String → Cell

structure DataFrame (Cell : Type) where
  columns : List String
  rows : List (Row Cell)

def DataFrame.present {Cell : Type} (df : DataFrame Cell) (field : Option String) : Option String :=
  field.filter (· ∈ df.columns)

section Cells

variable {Cell : Type} (env : Env Cell)

/-- `_to_decimal`, and `_decimal` of the rates. -/
def Env.toDecimal (value : Cell) : Option Extended :=
  if env.blank value then none else env.toNumeric value

/-- `_text` -/
def Env.text (value : Cell) : Option String :=
  if env.blank value then none
  else
    let text := env.strip (env.str value)
    if text = "" then none else some text

/-- `_timestamp` -/
def Env.timestamp (value : Cell) : Option Instant :=
  if env.blank value then none else env.toDatetime (env.str value)

/-- The aliases of `_normalized_unit`. -/
def unitAliases : List (String × String) :=
  [("hours", "hour"), ("hrs", "hour"), ("hr", "hour"), ("h", "hour"), ("units", "unit"),
    ("each", "unit"), ("ea", "unit"), ("days", "day")]

/-- `_normalized_unit` -/
def Env.normalizedUnit (value : String) : String :=
  let normalized := env.lower (env.strip value)
  ((unitAliases.find? (·.1 = normalized)).map (·.2)).getD
    (String.ofList (normalized.toList.reverse.dropWhile (· = 's')).reverse)

end Cells

/-! ## Rates -/

structure RateDatasetFields (Cell : Type) where
  datasetId : UUID
  datasetLabel : String
  dataframe : DataFrame Cell
  (contractIdField rateField : String)
  effectiveFromField : Option String := none
  effectiveToField : Option String := none
  unitField : Option String := none
  currencyField : Option String := none
  implicitUnit : Option String := none
  temporalAuthorityUnresolved : Bool := false

inductive RateBasis
  | explicitUnitColumn
  | implicitUnitConcept

structure GovernedRateEvidence where
  datasetId : UUID
  (datasetLabel rowReference : String)
  amount : Extended
  unit : String
  rateBasis : Option RateBasis
  currency : Option String
  contractKey : String
  temporalApplicability : Option (Option Instant × Option Instant)

/-- `a or b` for texts that may be missing. -/
def orElse (a b : Option String) : Option String :=
  match a with
  | some text => if text = "" then b else some text
  | none => b

/-- The instant is in the window; without an instant, there must be no boundary. -/
def InWindow (start stop : Option Instant) : Option Instant → Prop
  | none => start = none ∧ stop = none
  | some t => (∀ s ∈ start, s ≤ t) ∧ ∀ e ∈ stop, t ≤ e

instance (start stop : Option Instant) : ∀ t, Decidable (InWindow start stop t)
  | none => inferInstanceAs (Decidable (_ ∧ _))
  | some _ => inferInstanceAs (Decidable ((∀ s ∈ start, _) ∧ ∀ e ∈ stop, _))

section Rates

variable {Cell : Type} (env : Env Cell)

def rateMatch (dataset : RateDatasetFields Cell) (contractKey : String) (instant : Option Instant)
    (quantityUnit quantityCurrency : Option String) (row : Row Cell) :
    Option GovernedRateEvidence := do
  let frame := dataset.dataframe
  guard (env.text (row.cell dataset.contractIdField) = some contractKey)
  let start := (frame.present dataset.effectiveFromField).bind fun f => env.timestamp (row.cell f)
  let stop := (frame.present dataset.effectiveToField).bind fun f => env.timestamp (row.cell f)
  guard (InWindow start stop instant)
  let explicitUnitText := (frame.present dataset.unitField).bind fun f => env.text (row.cell f)
  let expectedUnit ← quantityUnit.map env.normalizedUnit
  let rateUnit ← (orElse explicitUnitText dataset.implicitUnit).map env.normalizedUnit
  guard (expectedUnit = rateUnit)
  let rateCurrency := ((frame.present dataset.currencyField).bind fun f =>
    env.text (row.cell f)).map env.upper
  guard (quantityCurrency.map env.upper = rateCurrency)
  let amount ← env.toDecimal (row.cell dataset.rateField)
  guard (amount.isNegative = false)
  return {
    datasetId := dataset.datasetId
    datasetLabel := dataset.datasetLabel
    rowReference := row.index
    amount
    unit := rateUnit
    rateBasis := if explicitUnitText.isSome then some .explicitUnitColumn
      else dataset.implicitUnit.map fun _ => .implicitUnitConcept
    currency := rateCurrency
    contractKey
    temporalApplicability := if start.isSome ∨ stop.isSome then some (start, stop) else none }

/-- The rate rows of a dataset that apply to a quantity. -/
def rateMatches (contractKey : String) (instant : Option Instant)
    (quantityUnit quantityCurrency : Option String) (dataset : RateDatasetFields Cell) :
    List GovernedRateEvidence :=
  if dataset.temporalAuthorityUnresolved ∨ dataset.contractIdField ∉ dataset.dataframe.columns ∨
      dataset.rateField ∉ dataset.dataframe.columns then []
  else dataset.dataframe.rows.filterMap
    (rateMatch env dataset contractKey instant quantityUnit quantityCurrency)

/-- `resolve_applicable_rate` -/
def resolveApplicableRate (rateDatasets : List (RateDatasetFields Cell)) (contractKey : String)
    (instant : Option Instant) (quantityUnit quantityCurrency : Option String) :
    Option GovernedRateEvidence :=
  match rateDatasets.flatMap (rateMatches env contractKey instant quantityUnit quantityCurrency) with
  | [rate] => some rate
  | _ => none

end Rates

end Intel4Ops.Revenue

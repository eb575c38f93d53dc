import Intel4Ops.CaseStages.Concepts
import Intel4Ops.Lib.Claiming
import Intel4Ops.Revenue.Variance

/-!
# The revenue variance stage

The stage tries the subject types in order. A dataset with a column for the subject of one type is
claimed by that type and is not looked at again. Its quantity is the recorded one, else the recorded
hours, else a derived duration, which is turned into days where a rate is declared by the day: a
dataset gets columns of the hours and the days between the instants at which its rows start and end,
unless two pairs of instants disagree.
-/

namespace Intel4Ops.CaseStages

open Lib Lib.Decimal
open Revenue (DataFrame DatasetConceptFields Pass RateDatasetFields Row orElse)

/-! ## Derived durations -/

/-- `DurationEndpointPair` -/
structure DurationEndpointPair where
  (startConcept endConcept : String)

/-- `DECLARED_INTERVAL_PAIRS` -/
def declaredIntervalPairs : List DurationEndpointPair :=
  [⟨"event_timestamp", "completed_timestamp"⟩, ⟨"scheduled_timestamp", "completed_timestamp"⟩]

/-- A declared pair with its columns. -/
structure ResolvedPair where
  pair : DurationEndpointPair
  (startField endField : String)

/-- The hours and the days of an interval. -/
structure Elapsed where
  (hours days : Extended)

/-- `_elapsed` -/
def elapsed (start stop : Timestamp) : Option Elapsed :=
  if start.aware ≠ stop.aware ∨ stop.seconds < start.seconds then none
  else do
    let seconds := Extended.finite (stop.seconds - start.seconds)
    let hours ← seconds.div (.finite 3600)
    let days ← seconds.div (.finite 86400)
    return ⟨hours, days⟩

section Stage

variable {Cell : Type} (env : Env Cell)

/-- `_parse_timestamp` -/
def parseTimestamp (value : Cell) : Option Timestamp :=
  if env.blank value then none else env.toTimestamp (env.str value)

/-- `resolve_row_duration` -/
def resolveRowDuration (pair : ResolvedPair) (row : Row Cell) : Option Elapsed := do
  let start ← parseTimestamp env (row.cell pair.startField)
  let stop ← parseTimestamp env (row.cell pair.endField)
  elapsed start stop

def resolvedPairs (cd : CaseDataset Cell) (df : DataFrame Cell) : List ResolvedPair :=
  declaredIntervalPairs.filterMap fun pair => do
    let startField ← (cd.field pair.startConcept).filter (· ∈ df.columns)
    let endField ← (cd.field pair.endConcept).filter (· ∈ df.columns)
    return ⟨pair, startField, endField⟩

/-- Two pairs disagree on a row by more than a hundredth of an hour. -/
def disagree (a b : ResolvedPair) (row : Row Cell) : Bool :=
  match resolveRowDuration env a row, resolveRowDuration env b row with
  | some first, some other =>
    match first.hours.sub other.hours with
    | some difference =>
      let magnitude := if difference.isNegative then difference.neg else difference
      !magnitude.le (.finite (1 / 100))
    | none => false
  | _, _ => false

/-- The derived columns of a dataset, and the pair that they rest on. -/
structure DerivedDuration where
  (hoursField daysField : String)
  basis : DurationEndpointPair

def hoursColumn (pair : DurationEndpointPair) : String :=
  "__p3xxi3_derived_duration_hours__" ++ pair.startConcept ++ "__" ++ pair.endConcept

def daysColumn (pair : DurationEndpointPair) : String :=
  "__p3xxi3_derived_duration_days__" ++ pair.startConcept ++ "__" ++ pair.endConcept

def durationCell (pair : ResolvedPair) (part : Elapsed → Extended) (row : Row Cell) : Cell :=
  ((resolveRowDuration env pair row).map fun e => env.floatCell (part e)).getD env.missing

/-- `_resolve_derived_duration_field` -/
def resolveDerivedDurationField (cd : CaseDataset Cell) (df : DataFrame Cell) :
    DataFrame Cell × Option DerivedDuration :=
  let computed := (resolvedPairs cd df).filter fun pair =>
    df.rows.any fun row => (resolveRowDuration env pair row).isSome
  match computed with
  | [] => (df, none)
  | first :: others =>
    if others.any fun other => df.rows.any (disagree env first other) then (df, none)
    else
      let hours := hoursColumn first.pair
      let days := daysColumn first.pair
      (withColumn (withColumn df hours (durationCell env first (·.hours))) days
          (durationCell env first (·.days)),
        some ⟨hours, days, first.pair⟩)

/-! ## Rates -/

/-- `is_rate_card_shaped`: a contract with a rate. -/
def isRateCardShaped (cd : CaseDataset Cell) : Bool :=
  (cd.field "contract_id").isSome &&
    ((cd.field "unit_price").isSome || (cd.field "hourly_rate").isSome)

/-- A decision selects a boundary of the validity of a rate, but none is authoritative. -/
def temporalAuthorityUnresolved (cd : CaseDataset Cell) : Bool :=
  (decide ("effective_from_timestamp" ∈ cd.selectedConcepts) &&
      (cd.field "effective_from_timestamp").isNone) ||
    (decide ("effective_to_timestamp" ∈ cd.selectedConcepts) &&
      (cd.field "effective_to_timestamp").isNone)

/-- The rate rows of a dataset with a contract column. -/
def rateDatasetFields (cd : CaseDataset Cell) (df : DataFrame Cell) (contractField : String) :
    RateDatasetFields Cell where
  datasetId := cd.datasetId
  datasetLabel := cd.sourceLabel
  dataframe := df
  contractIdField := contractField
  rateField := (orElse (cd.field "hourly_rate") (cd.field "unit_price")).getD ""
  effectiveFromField := cd.field "effective_from_timestamp"
  effectiveToField := cd.field "effective_to_timestamp"
  unitField := cd.field "unit_of_measure"
  currencyField := cd.field "currency_code"
  implicitUnit := if (cd.field "hourly_rate").isSome then some "hour" else none
  temporalAuthorityUnresolved := temporalAuthorityUnresolved cd

/-- The rate datasets of a case, by a test for their shape. -/
def rateDatasets (isRateShaped : CaseDataset Cell → Bool) (case : Case Cell) :
    List (RateDatasetFields Cell) :=
  case.datasets.filterMap fun cd =>
    match cd.canonicalFrame, cd.field "contract_id" with
    | some df, some contractField =>
      if isRateShaped cd then some (rateDatasetFields cd df contractField) else none
    | _, _ => none

/-! ## Quantities -/

def declaresDay (df : DataFrame Cell) (unitField : Option String) : Bool :=
  match df.present unitField with
  | some field => df.rows.any fun row =>
      decide (env.lower (env.strip (env.str (row.cell field))) ∈ ["day", "days"])
  | none => false

/-- The frame of a dataset with its derived durations; they are a last resort. -/
def withDuration (cd : CaseDataset Cell) (df : DataFrame Cell) :
    DataFrame Cell × Option DerivedDuration :=
  if (cd.field "quantity").isNone ∧ (cd.field "duration_hours").isNone then
    resolveDerivedDurationField env cd df
  else (df, none)

/-- The derived column that stands for the quantity, and its unit. -/
def derivedQuantity (cd : CaseDataset Cell) (df : DataFrame Cell)
    (derived : Option DerivedDuration) : Option (String × String) :=
  derived.map fun d =>
    if declaresDay env df (cd.field "unit_of_measure") then (d.daysField, "day")
    else (d.hoursField, "hour")

def requiredConcepts (cd : CaseDataset Cell) (evidenceConcept : String)
    (derived : Option DerivedDuration) : Finset String :=
  let endpoints := derived.elim [] fun d =>
    (if d.basis.endConcept = "completed_timestamp" then ["completed_timestamp"] else []) ++
      if d.basis.startConcept = "scheduled_timestamp" then ["scheduled_timestamp"] else []
  (([evidenceConcept, "quantity", "unit_price", "invoice_amount", "cost_amount", "duration_hours",
    "contract_id", "event_timestamp", "unit_of_measure"] ++ endpoints).filter fun concept =>
      (cd.field concept).isSome).toFinset

/-- A dataset of a pass, and the days column that may replace its hours. -/
structure Source (Cell : Type) where
  dataset : CaseDataset Cell
  fields : DatasetConceptFields Cell
  pendingDays : Option String

/-- The fields of a dataset with a column for the subject. -/
def revenueSource (cd : CaseDataset Cell) (subject : SubjectField Cell) : Source Cell :=
  let (df, derived) := withDuration env cd subject.dataframe
  let quantity := derivedQuantity env cd df derived
  { dataset := cd
    fields := {
      datasetId := cd.datasetId
      datasetLabel := cd.sourceLabel
      dataframe := df
      trustAssessmentId := cd.trustAssessmentId
      subjectIdField := some subject.field
      quantityField :=
        orElse (cd.field "quantity") (orElse (cd.field "duration_hours") (quantity.map (·.1)))
      unitPriceField := cd.field "unit_price"
      invoiceAmountField := cd.field "invoice_amount"
      costAmountField := cd.field "cost_amount"
      currencyField := cd.field "currency_code"
      contractIdField := cd.field "contract_id"
      eventTimestampField := cd.field "event_timestamp"
      unitField := cd.field "unit_of_measure"
      implicitQuantityUnit :=
        if (cd.field "duration_hours").isSome then some "hour" else quantity.map (·.2)
      canonicalEvidenceCompleteness := some (evaluateCanonicalEvidenceCompleteness cd
        (requiredConcepts cd subject.evidenceConcept derived))
      isRateCardShaped := isRateCardShaped cd }
    pendingDays :=
      if quantity.map (·.2) = some "hour" then derived.map (·.daysField) else none }

/-- A source whose hours are replaced by days. -/
def Source.swapped (source : Source Cell) : Source Cell :=
  match source.pendingDays with
  | some days => { source with
      fields := { source.fields with
        quantityField := some days
        implicitQuantityUnit := some "day" } }
  | none => source

/-! ## Passes -/

/-- What one subject type makes of the datasets that are not claimed. -/
def revenueSources (case : Case Cell) (tier : SubjectType) (claimed : List UUID) :
    List (Source Cell) :=
  let sources := case.datasets.filterMap fun cd => do
    let df ← cd.canonicalFrame
    guard (cd.id ∉ claimed)
    let subject ← resolveSubjectField env case cd df tier.concept (!isRateCardShaped cd)
    return revenueSource env cd subject
  if (rateDatasets isRateCardShaped case).any fun rate =>
      declaresDay env rate.dataframe rate.unitField then sources.map (·.swapped)
  else sources

/-- A pass of the stage: its subject type and the datasets that it claims. -/
structure StagePass (Cell : Type) where
  tier : SubjectType
  sources : List (Source Cell)

/-- The passes over some subject types, in order. -/
def revenuePasses (case : Case Cell) : List SubjectType → List UUID → List (StagePass Cell)
  | [], _ => []
  | tier :: tiers, claimed =>
    if case.eligibleSubjects tier = [] then revenuePasses case tiers claimed
    else
      let sources := revenueSources env case tier claimed
      ⟨tier, sources⟩ :: revenuePasses case tiers (claimed ++ sources.map (·.dataset.id))

/-- The passes of a run of the stage. -/
def revenueStage (case : Case Cell) : List (StagePass Cell) :=
  revenuePasses env case SubjectType.declared []

/-- The call of `run_revenue_amount_variance` in a pass. -/
def StagePass.revenuePass (case : Case Cell) (pass : StagePass Cell) : Pass Cell where
  organizationId := case.organizationId
  datasets := pass.sources.map (·.fields)
  eligibleSubjectKeys := case.eligibleSubjects pass.tier
  rateDatasets := rateDatasets isRateCardShaped case
  subjectEntityType := pass.tier.lower

end Stage

/-! ## Passes as successive claims -/

section Claims

variable {Cell : Type} {env : Env Cell} {case : Case Cell}

theorem revenuePasses_eq (env : Env Cell) (case : Case Cell) (tiers : List SubjectType)
    (claimed : List UUID) :
    revenuePasses env case tiers claimed =
      (Claiming.passes (fun tier => !decide (case.eligibleSubjects tier = []))
        (revenueSources env case) (fun source => [source.dataset.id]) tiers claimed).map
          fun pass => ⟨pass.1, pass.2⟩ := by
  induction tiers generalizing claimed with
  | nil => rfl
  | cons tier tiers ih =>
    rw [revenuePasses, Claiming.passes]
    by_cases h : case.eligibleSubjects tier = []
    · rw [if_pos h, if_neg (by simp [h]), ih]
    · rw [if_neg h, if_pos (by simp [h]), List.map_cons, ← ih, ← List.map_eq_flatMap]

theorem exists_revenueSources {pass : StagePass Cell} (h : pass ∈ revenueStage env case) :
    ∃ claimed, pass.sources = revenueSources env case pass.tier claimed := by
  rw [revenueStage, revenuePasses_eq] at h
  obtain ⟨p, hp, rfl⟩ := List.mem_map.1 h
  exact Claiming.exists_take hp

end Claims

end Intel4Ops.CaseStages

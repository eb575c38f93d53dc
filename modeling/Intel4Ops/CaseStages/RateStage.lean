import Intel4Ops.CaseStages.RevenueStage
import Intel4Ops.Revenue.Compliance

/-!
# The rate compliance stage

The stage goes through the subject types like the revenue variance stage, but a type claims only the
datasets with an explicit applied rate. A dataset with bills and no such rate is looked at again.
-/

namespace Intel4Ops.CaseStages

open Lib
open Revenue (AppliedRateDatasetFields CompliancePass RateFinding Raised complianceOutcomes orElse)

section Stage

variable {Cell : Type} (env : Env Cell)

/-- `is_contract_rate_shaped`: a contract with a rate by the hour, or with a unit price on a row
that is no bill. -/
def isContractRateShaped (cd : CaseDataset Cell) : Bool :=
  (cd.field "contract_id").isSome &&
    ((cd.field "hourly_rate").isSome ||
      ((cd.field "unit_price").isSome && (cd.field "actual_applied_rate").isNone &&
        (cd.field "invoice_id").isNone && (cd.field "status").isNone))

/-- The hours that stand for a missing quantity. -/
def fallbackHours (cd : CaseDataset Cell) : Option String :=
  if (cd.field "quantity").isNone then cd.field "duration_hours" else none

/-- `rate_required_concepts` -/
def rateRequiredConcepts (cd : CaseDataset Cell) (evidenceConcept : String) : Finset String :=
  ([evidenceConcept, "actual_applied_rate", "invoice_amount", "unit_price", "unit_of_measure",
    "currency_code", "contract_id", "event_timestamp",
    if (fallbackHours cd).isSome then "duration_hours" else "quantity"].filter fun concept =>
      (cd.field concept).isSome).toFinset

/-- A dataset of a pass. -/
structure RateSource (Cell : Type) where
  dataset : CaseDataset Cell
  fields : AppliedRateDatasetFields Cell

/-- The fields of a dataset with a column for the subject. -/
def rateSource (cd : CaseDataset Cell) (subject : SubjectField Cell) : RateSource Cell where
  dataset := cd
  fields := {
    datasetId := cd.datasetId
    datasetLabel := cd.sourceLabel
    dataframe := subject.dataframe
    trustAssessmentId := cd.trustAssessmentId
    subjectIdField := some subject.field
    actualRateField := cd.field "actual_applied_rate"
    contractIdField := cd.field "contract_id"
    unitField := cd.field "unit_of_measure"
    currencyField := cd.field "currency_code"
    eventTimestampField := cd.field "event_timestamp"
    quantityField := if (cd.field "quantity").isNone then fallbackHours cd else cd.field "quantity"
    canonicalEvidenceCompleteness := some (evaluateCanonicalEvidenceCompleteness cd
      (rateRequiredConcepts cd subject.evidenceConcept))
    invoiceAmountField := cd.field "invoice_amount"
    componentUnitPriceField := if isContractRateShaped cd then none else cd.field "unit_price"
    implicitQuantityUnit := if (fallbackHours cd).isSome then some "hour" else none
    isRateCardShaped := isContractRateShaped cd }

/-- A dataset is claimed by its explicit rate. -/
def Claims (cd : CaseDataset Cell) : Prop := (cd.field "actual_applied_rate").isSome = true

instance (cd : CaseDataset Cell) : Decidable (Claims cd) := inferInstanceAs (Decidable (_ = true))

/-- What one subject type makes of the datasets; one with an explicit rate is taken once. -/
def rateSources (case : Case Cell) (tier : SubjectType) (claimed : List UUID) :
    List (RateSource Cell) :=
  case.datasets.filterMap fun cd => do
    let df ← cd.canonicalFrame
    guard (¬ (cd.id ∈ claimed ∧ Claims cd))
    let subject ← resolveSubjectField env case cd df tier.concept (!isContractRateShaped cd)
    return rateSource cd subject

/-- A pass of the stage. -/
structure RatePass (Cell : Type) where
  tier : SubjectType
  sources : List (RateSource Cell)

/-- The passes over some subject types, in order. -/
def ratePasses (case : Case Cell) : List SubjectType → List UUID → List (RatePass Cell)
  | [], _ => []
  | tier :: tiers, claimed =>
    if case.eligibleSubjects tier = [] then ratePasses case tiers claimed
    else
      let sources := rateSources env case tier claimed
      let newlyClaimed := (sources.filter fun source => Claims source.dataset).map (·.dataset.id)
      ⟨tier, sources⟩ :: ratePasses case tiers (claimed ++ newlyClaimed)

/-- The passes of a run of the stage. -/
def rateStage (case : Case Cell) : List (RatePass Cell) :=
  ratePasses env case SubjectType.declared []

/-- The call of `run_contract_rate_compliance` in a pass. -/
def RatePass.compliancePass (case : Case Cell) (pass : RatePass Cell) : CompliancePass Cell where
  organizationId := case.organizationId
  datasets := pass.sources.map (·.fields)
  eligibleSubjectKeys := (case.eligibleSubjects pass.tier).toFinset
  rateDatasets := rateDatasets isContractRateShaped case
  subjectEntityType := pass.tier.lower

/-- What the passes make of their comparisons, in order. -/
def rateOutcomes (case : Case Cell) : List (Except Raised (Option (SubjectType × RateFinding))) :=
  (rateStage env case).flatMap fun pass =>
    (complianceOutcomes env.toEnv (pass.compliancePass case)).map fun outcome =>
      outcome.map fun finding => finding.map fun f => (pass.tier, f)

/-- The findings that are published, up to the first exception. -/
def published {α : Type} (publish : α → Except Raised Unit) :
    List (Except Raised (Option α)) → List α
  | [] => []
  | .error _ :: _ => []
  | .ok none :: outcomes => published publish outcomes
  | .ok (some a) :: outcomes =>
    match publish a with
    | .error _ => []
    | .ok _ => a :: published publish outcomes

/-- The findings of a run of the stage. -/
def rateFindings (publish : SubjectType × RateFinding → Except Raised Unit) (case : Case Cell) :
    List (SubjectType × RateFinding) :=
  published publish (rateOutcomes env case)

end Stage

/-! ## Passes as successive claims -/

section Claims

variable {Cell : Type} {env : Env Cell} {case : Case Cell}

/-- The claim of a dataset with an explicit rate. -/
def rateClaims (source : RateSource Cell) : List UUID :=
  if Claims source.dataset then [source.dataset.id] else []

theorem ratePasses_eq (env : Env Cell) (case : Case Cell) (tiers : List SubjectType)
    (claimed : List UUID) :
    ratePasses env case tiers claimed =
      (Claiming.passes (fun tier => !decide (case.eligibleSubjects tier = []))
        (rateSources env case) rateClaims tiers claimed).map fun pass => ⟨pass.1, pass.2⟩ := by
  have hclaims : ∀ sources : List (RateSource Cell),
      (sources.filter fun source => Claims source.dataset).map (·.dataset.id) =
        sources.flatMap rateClaims := by
    intro sources
    induction sources with
    | nil => rfl
    | cons source sources ih =>
      rw [List.flatMap_cons, ← ih, rateClaims, List.filter_cons]
      by_cases h : Claims source.dataset
      · simp [h]
      · simp [h]
  induction tiers generalizing claimed with
  | nil => rfl
  | cons tier tiers ih =>
    rw [ratePasses, Claiming.passes]
    by_cases h : case.eligibleSubjects tier = []
    · rw [if_pos h, if_neg (by simp [h]), ih]
    · rw [if_neg h, if_pos (by simp [h]), List.map_cons, ← ih, ← hclaims]

theorem exists_rateSources {pass : RatePass Cell} (h : pass ∈ rateStage env case) :
    ∃ claimed, pass.sources = rateSources env case pass.tier claimed := by
  rw [rateStage, ratePasses_eq] at h
  obtain ⟨p, hp, rfl⟩ := List.mem_map.1 h
  exact Claiming.exists_take hp

end Claims

end Intel4Ops.CaseStages

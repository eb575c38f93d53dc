import Intel4Ops.Entities.Candidates
import Intel4Ops.Lib.Statistics
import Intel4Ops.Lib.Texts
import Intel4Ops.Reviews.Model
import Mathlib.Data.Prod.Lex

/-!
# Governed readiness

An intelligence pack declares what it needs: domains, fields, entities, relationships, activities,
states and measures, some of them as alternatives, and how confident the evidence has to be. An
index says what a case has. The evaluation compares the two, category by category, and derives one
status from all that is missing or falls short.
-/

namespace Intel4Ops.Readiness

open Lib Entities

/-! ## Confidence distributions -/

/-- `ConfidenceDistribution` -/
structure ConfidenceDistribution where
  values : List ℚ

namespace ConfidenceDistribution

def min (d : ConfidenceDistribution) : ℚ := d.values.min?.getD 0

def max (d : ConfidenceDistribution) : ℚ := d.values.max?.getD 0

def median (d : ConfidenceDistribution) : ℚ := if d.values = [] then 0 else Lib.median d.values

def coverageAbove (d : ConfidenceDistribution) (threshold : ℚ) : ℚ :=
  if d.values = [] then 0
  else (d.values.countP fun v => threshold ≤ v) / d.values.length

end ConfidenceDistribution

/-- `confidence_aggregation_policy` -/
inductive AggregationPolicy
  | coverageAboveThreshold
  | min
  | median
  | max
  deriving DecidableEq

/-- `_meets_confidence` -/
def meetsConfidence (d : ConfidenceDistribution) (minimum : ℚ) (policy : AggregationPolicy)
    (minimumCoverageRatio : ℚ) : Prop :=
  minimum ≤ 0 ∨
    match policy with
    | .min => minimum ≤ d.min
    | .median => minimum ≤ d.median
    | .max => minimum ≤ d.max
    | .coverageAboveThreshold => minimumCoverageRatio ≤ d.coverageAbove minimum

instance (d : ConfidenceDistribution) (minimum : ℚ) (policy : AggregationPolicy) (ratio : ℚ) :
    Decidable (meetsConfidence d minimum policy ratio) :=
  match policy with
  | .min => inferInstanceAs (Decidable (_ ∨ _ ≤ _))
  | .median => inferInstanceAs (Decidable (_ ∨ _ ≤ _))
  | .max => inferInstanceAs (Decidable (_ ∨ _ ≤ _))
  | .coverageAboveThreshold => inferInstanceAs (Decidable (_ ∨ _ ≤ _))

/-! ## Packs -/

inductive CurrencyBehavior
  | singleCurrencyOnly
  | multiCurrencyAware
  | currencyAgnostic
  deriving DecidableEq

inductive UnitBehavior
  | unitAgnostic
  | singleUnitOnly
  | unitAware
  deriving DecidableEq

/-- `IntelligencePackDefinition`, as far as readiness reads it. -/
structure IntelligencePackDefinition where
  ruleCode : String
  requiredDomains : Finset String := ∅
  requiredCanonicalFields : Finset String := ∅
  requiredEntities : Finset String := ∅
  currencyRequired : Bool := false
  requiredCanonicalEntities : Finset String := ∅
  requiredRelationships : Finset String := ∅
  requiredActivities : Finset String := ∅
  requiredActivitySequences : Finset (String × String) := ∅
  requiredStates : Finset String := ∅
  requiredCanonicalMeasures : Finset String := ∅
  alternativeCanonicalMeasureSets : List (Finset String) := []
  alternativeCanonicalEntitySets : List (Finset String) := []
  requiredResolvedTrustDomains : Finset String := ∅
  minimumEntityIdentityConfidence : ℚ := 0
  minimumRelationshipConfidence : ℚ := 0
  minimumActivityConfidence : ℚ := 0
  minimumProcessConfidence : ℚ := 0
  confidenceAggregationPolicy : AggregationPolicy := .coverageAboveThreshold
  minimumCoverageRatio : ℚ := 1
  currencyBehavior : CurrencyBehavior := .singleCurrencyOnly
  unitBehavior : UnitBehavior := .unitAgnostic
  isDisabled : Bool := false

/-! ## The capability index -/

/-- `MeasureCapability`, less its coverage, which is always whole. -/
structure MeasureCapability where
  measureCode : String
  count : ℕ
  (currenciesObserved unitsObserved : Finset String)
  confidence : ConfidenceDistribution

/-- `CaseCapabilityIndex`; a type that no row has, has the empty distribution. -/
structure CaseCapabilityIndex where
  (availableDomains availableCanonicalFields resolvedEntityTypes : Finset String)
  currencyUnresolved : Bool
  (domainsWithResolvedTrust canonicalEntityTypesPresent : Finset String)
  canonicalEntityIdentityConfidenceByType : String → ConfidenceDistribution
  canonicalRelationshipTypesPresent : Finset String
  canonicalRelationshipConfidenceByType : String → ConfidenceDistribution
  activityTypesPresent : Finset String
  activityTypeConfidenceByType : String → ConfidenceDistribution
  precedesPairsPresent : Finset (String × String)
  precedesPairConfidence : String × String → ConfidenceDistribution
  namedStatesPresent : Finset String
  stateMeaningConfidenceByState : String → ConfidenceDistribution
  canonicalMeasures : List MeasureCapability
  distinctCurrenciesObserved : Finset String
  distinctUnitsObservedByMeasure : String → Finset String

def CaseCapabilityIndex.measure? (index : CaseCapabilityIndex) (code : String) :
    Option MeasureCapability :=
  index.canonicalMeasures.find? (·.measureCode = code)

/-- `available_measure_codes` -/
def CaseCapabilityIndex.availableMeasureCodes (index : CaseCapabilityIndex) : Finset String :=
  (index.canonicalMeasures.map (·.measureCode)).toFinset

/-! ## What a case has shown -/

inductive EntityLinkStatus
  | matched
  | unresolved
  | conflict
  deriving DecidableEq

/-- What the index reads of a process activity. -/
structure ProcessActivity where
  id : UUID
  activityType : String
  activityTypeConfidence : ℚ
  stateValue : Option String
  stateMeaningConfidence : ℚ

/-- What the index reads of a process edge. -/
structure ProcessEdge where
  (fromActivityId toActivityId : UUID)
  precedes : Bool
  precedenceConfidence : ℚ

/-- What the index reads of an interpretation decision. -/
structure InterpretationDecision where
  selectedConcept : Option String
  confidence : ℚ
  status : Reviews.MachineStatus

inductive CanonicalConceptType
  | identifier
  | timestamp
  | quantity
  | monetaryAmount
  | code
  | status
  | text
  deriving DecidableEq

/-- A column of a dataset: its name and its values, where they are not null. -/
structure Column where
  name : String
  values : List String

/-- The interpretation of one dataset, and its columns if it was loaded. -/
structure DatasetEvidence where
  decisions : List InterpretationDecision
  dataframe : Option (List Column)

/-- What a case has shown in a run: the rows and signals that its index is built from. -/
structure CaseEvidence where
  availableDomains : Finset String := ∅
  availableCanonicalFields : Finset String := ∅
  domainsWithResolvedTrust : Finset String := ∅
  entityLinks : List (String × EntityLinkStatus) := []
  candidates : List EntityCandidate := []
  relationships : List (String × ℚ) := []
  activities : List ProcessActivity := []
  edges : List ProcessEdge := []
  datasets : List DatasetEvidence := []
  /-- The types of the registered concepts. -/
  conceptType : String → Option CanonicalConceptType := fun _ => none

/-! ## Building the index -/

def distributionOf {κ : Type*} [DecidableEq κ] (rows : List (κ × ℚ)) (k : κ) :
    ConfidenceDistribution :=
  ⟨(group (·.1) rows k).map (·.2)⟩

def typesOf {κ : Type*} [DecidableEq κ] (rows : List (κ × ℚ)) : Finset κ :=
  (rows.map (·.1)).toFinset

/-- The rows of `CanonicalCaseEntity`, one for each candidate. -/
def CaseEvidence.entityRows (case : CaseEvidence) : List (String × ℚ) :=
  case.candidates.map fun c => (c.entityType, c.entityIdentityConfidence)

def CaseEvidence.activityRows (case : CaseEvidence) : List (String × ℚ) :=
  case.activities.map fun a => (a.activityType, a.activityTypeConfidence)

def CaseEvidence.stateRows (case : CaseEvidence) : List (String × ℚ) :=
  case.activities.filterMap fun a => a.stateValue.map fun state => (state, a.stateMeaningConfidence)

def CaseEvidence.activityType? (case : CaseEvidence) (id : UUID) : Option String :=
  (case.activities.find? (·.id = id)).map (·.activityType)

/-- The pairs of activity types that some edge puts in order. -/
def CaseEvidence.precedesRows (case : CaseEvidence) : List ((String × String) × ℚ) :=
  (case.edges.filter (·.precedes)).filterMap fun edge => do
    let fromType ← case.activityType? edge.fromActivityId
    let toType ← case.activityType? edge.toActivityId
    return ((fromType, toType), edge.precedenceConfidence)

/-- A character as `re.IGNORECASE` compares it with a small letter. -/
def foldChar (c : Char) : Char :=
  if c = 'İ' ∨ c = 'ı' then 'i' else if c = 'ſ' then 's' else c.toLower

/-- A name as a pattern ending in `$` reads it, where a last line feed does not count. -/
def patternText (name : String) : List Char :=
  let text := name.toList.map foldChar
  if text.getLast? = some '\n' then text.dropLast else text

/-- `_CURRENCY_COLUMN_PATTERN.search` -/
def isCurrencyColumn (name : String) : Bool :=
  (name.toList.map foldChar).tails.any ("currency".toList.isPrefixOf ·)

/-- `_UNIT_COLUMN_PATTERN.search` -/
def isUnitColumn (name : String) : Bool :=
  "unit".toList.isSuffixOf (patternText name) ||
    "unit_of_measure".toList.isSuffixOf (patternText name) || patternText name = "uom".toList

/-- The currencies that a dataset states, in the last of its currency columns. -/
def DatasetEvidence.currencyValues (dataset : DatasetEvidence) : Finset String :=
  (((dataset.dataframe.getD []).filter (isCurrencyColumn ·.name)).getLast?.map
    (·.values.toFinset)).getD ∅

/-- The units that a dataset states, in the last of its unit columns. -/
def DatasetEvidence.unitValues (dataset : DatasetEvidence) : Finset String :=
  (((dataset.dataframe.getD []).filter fun column =>
    !isCurrencyColumn column.name && isUnitColumn column.name).getLast?.map
    (·.values.toFinset)).getD ∅

/-- `_DURATION_ENDPOINT_CONCEPTS` -/
def durationEndpointConcepts : List String :=
  ["event_timestamp", "scheduled_timestamp", "completed_timestamp"]

/-- A registered concept is a measure by its type, or as an end of a duration. -/
def CaseEvidence.IsMeasure (case : CaseEvidence) (code : String) : Prop :=
  case.conceptType code = some .quantity ∨ case.conceptType code = some .monetaryAmount ∨
    (case.conceptType code).isSome ∧ code ∈ durationEndpointConcepts

instance (case : CaseEvidence) (code : String) : Decidable (case.IsMeasure code) :=
  inferInstanceAs (Decidable (_ ∨ _ ∨ _ ∧ _))

/-- A measure of one dataset. -/
structure MeasureObservation where
  code : String
  confidence : ℚ
  (currencies units : Finset String)

/-- The measures that the decisions about the datasets select, whatever their status. -/
def CaseEvidence.measureObservations (case : CaseEvidence) : List MeasureObservation :=
  case.datasets.flatMap fun dataset =>
    dataset.decisions.filterMap fun decision =>
      match decision.selectedConcept with
      | none => none
      | some code =>
        if case.IsMeasure code then
          some ⟨code, decision.confidence, dataset.currencyValues, dataset.unitValues⟩
        else none

/-- `_measure_capabilities` -/
def CaseEvidence.measureCapabilities (case : CaseEvidence) : List MeasureCapability :=
  let observations := case.measureObservations
  (firsts (observations.map (·.code))).map fun code =>
    let own := group (·.code) observations code
    { measureCode := code
      count := own.length
      currenciesObserved := own.foldl (fun all o => all ∪ o.currencies) ∅
      unitsObserved := own.foldl (fun all o => all ∪ o.units) ∅
      confidence := ⟨own.map (·.confidence)⟩ }

/-- `build_case_capability_index` -/
def CaseEvidence.index (case : CaseEvidence) : CaseCapabilityIndex where
  availableDomains := case.availableDomains
  availableCanonicalFields := case.availableCanonicalFields
  resolvedEntityTypes := ((case.entityLinks.filter (·.2 = .matched)).map (·.1)).toFinset
  currencyUnresolved := false
  domainsWithResolvedTrust := case.domainsWithResolvedTrust
  canonicalEntityTypesPresent := typesOf case.entityRows
  canonicalEntityIdentityConfidenceByType := distributionOf case.entityRows
  canonicalRelationshipTypesPresent := typesOf case.relationships
  canonicalRelationshipConfidenceByType := distributionOf case.relationships
  activityTypesPresent := typesOf case.activityRows
  activityTypeConfidenceByType := distributionOf case.activityRows
  precedesPairsPresent := typesOf case.precedesRows
  precedesPairConfidence := distributionOf case.precedesRows
  namedStatesPresent := typesOf case.stateRows
  stateMeaningConfidenceByState := distributionOf case.stateRows
  canonicalMeasures := case.measureCapabilities
  distinctCurrenciesObserved :=
    case.measureCapabilities.foldl (fun all m => all ∪ m.currenciesObserved) ∅
  distinctUnitsObservedByMeasure := fun code =>
    ((case.measureCapabilities.find? (·.measureCode = code)).map (·.unitsObserved)).getD ∅

/-! ## Evaluation -/

inductive ReadinessStatus
  | disabled
  | ready
  | partially
  | blocked
  deriving DecidableEq

/-- `_evaluate_currency_safety`: whether amounts in several currencies would be added up. -/
def currencyViolation (pack : IntelligencePackDefinition) (index : CaseCapabilityIndex) : Prop :=
  pack.currencyBehavior = .singleCurrencyOnly ∧
    let relevant := pack.requiredCanonicalMeasures.biUnion fun code =>
      ((index.measure? code).map (·.currenciesObserved)).getD ∅
    1 < (if relevant = ∅ then index.distinctCurrenciesObserved else relevant).card

instance (pack : IntelligencePackDefinition) (index : CaseCapabilityIndex) :
    Decidable (currencyViolation pack index) :=
  inferInstanceAs (Decidable (_ ∧ _ < _))

/-- `_evaluate_unit_safety`: whether a measure has values in several units. -/
def unitViolation (pack : IntelligencePackDefinition) (index : CaseCapabilityIndex) : Prop :=
  pack.unitBehavior = .singleUnitOnly ∧
    ∃ code ∈ pack.requiredCanonicalMeasures, 1 < (index.distinctUnitsObservedByMeasure code).card

instance (pack : IntelligencePackDefinition) (index : CaseCapabilityIndex) :
    Decidable (unitViolation pack index) :=
  inferInstanceAs (Decidable (_ ∧ _))

/-- The first alternative entity set that the case has. -/
def presentAlternative (pack : IntelligencePackDefinition) (index : CaseCapabilityIndex) :
    Option (Finset String) :=
  pack.alternativeCanonicalEntitySets.find? fun entitySet =>
    entitySet ⊆ index.canonicalEntityTypesPresent

/-- The missing entity types, and those whose confidence counts. -/
def canonicalEntities (pack : IntelligencePackDefinition) (index : CaseCapabilityIndex) :
    Finset String × Finset String :=
  match presentAlternative pack index with
  | some entitySet => (∅, entitySet)
  | none =>
    (pack.requiredCanonicalEntities \ index.canonicalEntityTypesPresent,
      pack.requiredCanonicalEntities ∩ index.canonicalEntityTypesPresent)

def missingMeasures (pack : IntelligencePackDefinition) (index : CaseCapabilityIndex) :
    Finset String :=
  if ∃ measureSet ∈ pack.alternativeCanonicalMeasureSets,
      measureSet ⊆ index.availableMeasureCodes then ∅
  else pack.requiredCanonicalMeasures \ index.availableMeasureCodes

/-- The members of a set whose confidence is below what the pack asks for. -/
def below {κ : Type*} [DecidableEq κ] (pack : IntelligencePackDefinition) (minimum : ℚ)
    (distribution : κ → ConfidenceDistribution) (types : Finset κ) : Finset κ :=
  types.filter fun type => ¬ meetsConfidence (distribution type) minimum
    pack.confidenceAggregationPolicy pack.minimumCoverageRatio

/-- `below_confidence_threshold`, where each entry is named by its category. -/
def belowConfidenceThreshold (pack : IntelligencePackDefinition) (index : CaseCapabilityIndex) :
    Finset String :=
  (below pack pack.minimumEntityIdentityConfidence index.canonicalEntityIdentityConfidenceByType
    (canonicalEntities pack index).2).image ("entity_identity." ++ ·) ∪
  (below pack pack.minimumRelationshipConfidence index.canonicalRelationshipConfidenceByType
    (pack.requiredRelationships ∩ index.canonicalRelationshipTypesPresent)).image
      ("relationship." ++ ·) ∪
  (below pack pack.minimumActivityConfidence index.activityTypeConfidenceByType
    (pack.requiredActivities ∩ index.activityTypesPresent)).image ("activity." ++ ·) ∪
  (below pack pack.minimumProcessConfidence index.precedesPairConfidence
    (pack.requiredActivitySequences ∩ index.precedesPairsPresent)).image
      (fun pair => "activity_sequence." ++ pair.1 ++ "->" ++ pair.2) ∪
  (below pack pack.minimumProcessConfidence index.stateMeaningConfidenceByState
    (pack.requiredStates ∩ index.namedStatesPresent)).image ("state." ++ ·)

/-- `IntelligenceReadinessResult`, less the pack. -/
structure IntelligenceReadinessResult where
  status : ReadinessStatus
  (missingDomains missingFields missingEntities : Finset String)
  unresolvedCurrency : Bool
  (missingCanonicalEntities missingRelationships missingActivities : Finset String)
  missingActivitySequences : Finset (String × String)
  (missingStates missingCanonicalMeasures belowConfidenceThreshold : Finset String)
  (currencyViolation unitViolation : Bool)
  missingResolvedTrustDomains : Finset String

/-- Something that the pack requires is missing, or its amounts cannot be added up. -/
def IntelligenceReadinessResult.Blocking (result : IntelligenceReadinessResult) : Prop :=
  result.missingDomains ≠ ∅ ∨ result.missingFields ≠ ∅ ∨ result.missingEntities ≠ ∅ ∨
    result.missingCanonicalEntities ≠ ∅ ∨ result.missingRelationships ≠ ∅ ∨
    result.missingActivities ≠ ∅ ∨ result.missingActivitySequences ≠ ∅ ∨
    result.missingStates ≠ ∅ ∨ result.missingCanonicalMeasures ≠ ∅ ∨
    result.unresolvedCurrency = true ∨ result.currencyViolation = true ∨
    result.unitViolation = true ∨ result.missingResolvedTrustDomains ≠ ∅

instance (result : IntelligenceReadinessResult) : Decidable result.Blocking :=
  inferInstanceAs (Decidable (_ ∨ _ ∨ _ ∨ _ ∨ _ ∨ _ ∨ _ ∨ _ ∨ _ ∨ _ ∨ _ ∨ _ ∨ _))

/-- The status, from the complete picture. -/
def deriveStatus (pack : IntelligencePackDefinition) (result : IntelligenceReadinessResult) :
    ReadinessStatus :=
  if pack.isDisabled then .disabled
  else if result.Blocking then .blocked
  else if result.belowConfidenceThreshold ≠ ∅ then .partially
  else .ready

/-- `evaluate_readiness` -/
def evaluateReadiness (pack : IntelligencePackDefinition) (index : CaseCapabilityIndex) :
    IntelligenceReadinessResult :=
  let result : IntelligenceReadinessResult :=
    { status := .ready
      missingDomains := pack.requiredDomains \ index.availableDomains
      missingFields := pack.requiredCanonicalFields \ index.availableCanonicalFields
      missingEntities := pack.requiredEntities \ index.resolvedEntityTypes
      unresolvedCurrency := pack.currencyRequired && index.currencyUnresolved
      missingCanonicalEntities := (canonicalEntities pack index).1
      missingRelationships := pack.requiredRelationships \ index.canonicalRelationshipTypesPresent
      missingActivities := pack.requiredActivities \ index.activityTypesPresent
      missingActivitySequences := pack.requiredActivitySequences \ index.precedesPairsPresent
      missingStates := pack.requiredStates \ index.namedStatesPresent
      missingCanonicalMeasures := missingMeasures pack index
      belowConfidenceThreshold := belowConfidenceThreshold pack index
      currencyViolation := decide (currencyViolation pack index)
      unitViolation := decide (unitViolation pack index)
      missingResolvedTrustDomains :=
        pack.requiredResolvedTrustDomains \ index.domainsWithResolvedTrust }
  { result with status := deriveStatus pack result }

end Intel4Ops.Readiness

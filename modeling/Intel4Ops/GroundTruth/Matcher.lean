import Intel4Ops.GroundTruth.Model
import Intel4Ops.Lib.Matching
import Mathlib.Algebra.Order.Ring.Abs
import Mathlib.Algebra.Order.Field.Rat

/-!
# Ground-truth validation: the matchers

`matcher.py`, `leakage_matcher.py` and `family_registry.py`. Expected findings and leakage truth are
matched first fit against the production findings that are left. The entities of the ground truth
are arbitrary JSON values; the publishers of production findings write objects with two texts.
-/

namespace Intel4Ops.GroundTruth

open Lib

/-! ## Production findings and families -/

structure ProductionEntity where
  (entityType canonicalKey : String)
  deriving DecidableEq

structure Finding where
  id : UUID
  (ruleId severity : String)
  entities : List ProductionEntity
  deriving DecidableEq

structure PrioritizedFinding where
  finding : Finding
  impactedDomains : List String
  observedValuesByCurrency : List (String × ℚ)
  deriving DecidableEq

structure FamilyMapping where
  authoredFamily : String
  productionRuleFamilies : List String
  productionDomains : Option (List String)
  active : Bool

abbrev FamilyRegistry := List FamilyMapping

def FamilyRegistry.lookup (registry : FamilyRegistry) : Option String → Option FamilyMapping
  | none => none
  | some family =>
    if family = "" then none
    else (registry.find? (·.authoredFamily = family)).filter (·.active)

def defaultFamilyMappingRegistry : FamilyRegistry :=
  [⟨"MAINTENANCE_ECONOMICS", ["MAINT-001-REPEATED-FAILURE"], some ["maintenance"], true⟩,
    ⟨"WORKFORCE_PRODUCTIVITY", ["XDOM-A-ASSET-FAILURE-LOST-ACTIVITY"],
      some ["maintenance", "operations"], true⟩,
    ⟨"REVENUE_RECOGNITION", ["XDOM-B-LOST-ACTIVITY-REVENUE-GAP"],
      some ["operations", "revenue"], true⟩]

/-- The rule or one of the domains of the finding belongs to the mapping. -/
def FamilyMapping.covers (mapping : FamilyMapping) (actual : PrioritizedFinding) : Bool :=
  actual.finding.ruleId ∈ mapping.productionRuleFamilies ||
    (mapping.productionDomains.getD []).any (· ∈ actual.impactedDomains)

/-! ## Entity keys -/

abbrev EntityKey := Scalar × Scalar

/-- How matching raises: an element without `get`, a value that cannot be hashed, or keys that `<`
does not compare. -/
inductive MatchError
  | attributeError
  | unhashable
  | notComparable

/-- The value of a field that becomes part of a key; a missing field is null. -/
def keyPart (fields : List (String × Json)) (name : String) : Except MatchError Scalar :=
  orFail (((Json.field fields name).getD .null).scalar?) .unhashable

def entityKey : Json → Except MatchError EntityKey
  | .obj fields => do
    let entityType ← keyPart fields "entity_type"
    let canonicalKey ← keyPart fields "canonical_key"
    return (entityType, canonicalKey)
  | _ => .error .attributeError

/-- `_entity_keys`. -/
def entityKeys (entities : List Json) : Except MatchError (List EntityKey) := do
  let keys ← entities.mapM entityKey
  return keys.dedup

/-- `_entity_keys` of a production finding. -/
def actualEntityKeys (actual : PrioritizedFinding) : List EntityKey :=
  actual.finding.entities.map fun e => (.str e.entityType, .str e.canonicalKey)

/-- Tuples compare by their first parts, or by the second ones when the first are equal. -/
def ComparableKeys (a b : EntityKey) : Prop :=
  a = b ∨ (if a.1 = b.1 then a.2.Ordered b.2 else a.1.Ordered b.1)

instance (a b : EntityKey) : Decidable (ComparableKeys a b) := inferInstanceAs (Decidable (_ ∨ _))

/-- The order of comparable keys. -/
def keyLe (a b : EntityKey) : Bool := a = b || if a.1 = b.1 then a.2.lt b.2 else a.1.lt b.1

/-- `sorted`: neighbours of the result have been compared, so it raises exactly when two keys are
not comparable. -/
def sortKeys (keys : List EntityKey) : Except MatchError (List EntityKey) := do
  ensure (∀ a ∈ keys, ∀ b ∈ keys, ComparableKeys a b) .notComparable
  return keys.insertionSort fun a b => keyLe a b = true

/-! ## The matching loop -/

/-- What the two matchers do with one expectation. -/
structure Rules (Expected Pair : Type) where
  entities : Expected → List Json
  family : Expected → PrioritizedFinding → Bool
  missed : Expected → List EntityKey → Except MatchError Pair
  found : Expected → List EntityKey → PrioritizedFinding → Pair

/-- The production finding satisfies an expectation with these entity keys. -/
def Rules.accepts {Expected Pair : Type} (rules : Rules Expected Pair) (expected : Expected)
    (keys : List EntityKey) (actual : PrioritizedFinding) : Bool :=
  rules.family expected actual && (keys.isEmpty || keys.any (· ∈ actualEntityKeys actual))

/-- The loop over the expectations, with the production findings that are left. -/
def matchLoop {Expected Pair : Type} (rules : Rules Expected Pair) :
    List Expected → List PrioritizedFinding →
      Except MatchError (List Pair × List PrioritizedFinding)
  | [], unmatched => .ok ([], unmatched)
  | expected :: rest, unmatched => do
    let keys ← entityKeys (rules.entities expected)
    match unmatched.find? (rules.accepts expected keys) with
    | none => do
      let pair ← rules.missed expected keys
      let (pairs, left) ← matchLoop rules rest unmatched
      return (pair :: pairs, left)
    | some actual => do
      let (pairs, left) ← matchLoop rules rest (unmatched.erase actual)
      return (rules.found expected keys actual :: pairs, left)

/-! ## Expected findings -/

inductive MatchType
  | truePositive
  | falsePositive
  | falseNegative
  deriving DecidableEq

/-- The data that the reason of a pair names. -/
inductive Reason
  | noProductionFinding (label : Option String) (keys : List EntityKey)
  | matchedFinding (ruleId : String)
  | noExpectedFinding (ruleId : String)

structure ValidationExpectedFinding where
  expectedFindingCode : String
  domain : Option String
  severity : String
  entities : List Json
  evidenceRefs : List String
  expectedEconomicImpact : Option ℚ
  expectedDetectionFamily : Option String

/-- The row of an accepted finding. -/
def NormalizedExpectedFinding.persisted (finding : NormalizedExpectedFinding) :
    ValidationExpectedFinding :=
  { expectedFindingCode := finding.truthFindingId, domain := finding.domain
    severity := finding.severity, entities := finding.entities
    evidenceRefs := finding.evidenceRefs
    expectedEconomicImpact := finding.expectedEconomicImpact
    expectedDetectionFamily := finding.expectedDetectionFamily }

structure MatchedPair where
  matchType : MatchType
  expected : Option ValidationExpectedFinding
  actual : Option PrioritizedFinding
  (severityMatch entityMatch evidenceMatch : Option Bool)
  economicVariancePct : Option ℚ
  (matchedDimensions unmatchedDimensions : List String)
  reason : Reason

/-- `_evidence_overlap`. -/
def evidenceOverlap (text : Text) (expectedRefs actualSourceLabels : List String) : Option Bool :=
  if expectedRefs = [] ∨ actualSourceLabels = [] then none
  else some (expectedRefs.any fun ref => actualSourceLabels.any fun label =>
    text.lower (text.strip ((ref.splitOn ":").headD "")) = text.lower (text.strip label))

/-- `_economic_variance_pct`: against the first observed value. -/
def economicVariancePct (expectedImpact : Option ℚ) (actual : PrioritizedFinding) : Option ℚ :=
  match expectedImpact, actual.observedValuesByCurrency with
  | some expected, (_, observed) :: _ =>
    if expected = 0 then none else some (|observed - expected| / |expected| * 100)
  | _, _ => none

/-- `_candidate_matches_family_or_domain`. -/
def candidateMatchesFamilyOrDomain (registry : FamilyRegistry)
    (expected : ValidationExpectedFinding) (actual : PrioritizedFinding) : Bool :=
  match expected.domain.filter (· ≠ "") with
  | some domain => domain ∈ actual.impactedDomains
  | none =>
    match registry.lookup expected.expectedDetectionFamily with
    | none => false
    | some mapping => mapping.covers actual

def dimensions (outcome : Bool) (dims : List (String × Option Bool)) : List String :=
  (dims.filter (·.2 = some outcome)).map (·.1)

def truePositive (text : Text) (labels : UUID → List String) (expected : ValidationExpectedFinding)
    (keys : List EntityKey) (actual : PrioritizedFinding) : MatchedPair :=
  let severityMatch := text.lower actual.finding.severity = text.lower expected.severity
  let entityMatch :=
    if keys.isEmpty then none else some (keys.all (· ∈ actualEntityKeys actual))
  let evidenceMatch := evidenceOverlap text expected.evidenceRefs (labels actual.finding.id)
  let dims :=
    [("severity", some (decide severityMatch)), ("entity", entityMatch),
      ("evidence", evidenceMatch)]
  { matchType := .truePositive, expected := some expected, actual := some actual
    severityMatch := some (decide severityMatch), entityMatch, evidenceMatch
    economicVariancePct := economicVariancePct expected.expectedEconomicImpact actual
    matchedDimensions := "presence" :: dimensions true dims
    unmatchedDimensions := dimensions false dims
    reason := .matchedFinding actual.finding.ruleId }

/-- A pair without its other side. -/
def unpaired (matchType : MatchType) (expected : Option ValidationExpectedFinding)
    (actual : Option PrioritizedFinding) (reason : Reason) : MatchedPair :=
  { matchType, expected, actual, severityMatch := none, entityMatch := none, evidenceMatch := none
    economicVariancePct := none, matchedDimensions := [], unmatchedDimensions := ["presence"]
    reason }

/-- The pair of an expected finding that nothing matches; its reason sorts the entity keys. -/
def falseNegative (expected : ValidationExpectedFinding) (keys : List EntityKey) :
    Except MatchError MatchedPair := do
  let sorted ← sortKeys keys
  return unpaired .falseNegative (some expected) none (.noProductionFinding
    ((expected.expectedDetectionFamily.filter (· ≠ "")).orElse fun _ => expected.domain) sorted)

def falsePositive (actual : PrioritizedFinding) : MatchedPair :=
  unpaired .falsePositive none (some actual) (.noExpectedFinding actual.finding.ruleId)

/-- What `match_findings` does with one expected finding. -/
def findingRules (text : Text) (registry : FamilyRegistry) (labels : UUID → List String) :
    Rules ValidationExpectedFinding MatchedPair where
  entities := (·.entities)
  family := candidateMatchesFamilyOrDomain registry
  missed := falseNegative
  found := truePositive text labels

def matchFindings (text : Text) (registry : FamilyRegistry) (labels : UUID → List String)
    (expectedFindings : List ValidationExpectedFinding) (actualFindings : List PrioritizedFinding) :
    Except MatchError (List MatchedPair) := do
  let (pairs, left) ← matchLoop (findingRules text registry labels) expectedFindings actualFindings
  return pairs ++ left.map falsePositive

structure ScoreSummary where
  (truePositiveCount falsePositiveCount falseNegativeCount : ℕ)
  precision : Option ℚ
  «recall» : Option ℚ
  (f1 severityAccuracy entityAccuracy evidenceAccuracy economicVarianceAvgPct criticalLeakageRecall
    : Option ℚ)

/-- `_ratio`. -/
def ratio (numerator denominator : ℕ) : Option ℚ :=
  if denominator = 0 then none else some (numerator / denominator)

/-- The harmonic mean, when both are known and not both zero. -/
def f1Score (precision «recall» : Option ℚ) : Option ℚ :=
  match precision, «recall» with
  | some p, some r => if 0 < p + r then some (2 * p * r / (p + r)) else none
  | _, _ => none

/-- The share of the positive outcomes among the known ones. -/
def accuracy (outcomes : List (Option Bool)) : Option ℚ :=
  ratio (outcomes.count (some true)) (outcomes.countP (·.isSome))

/-- The mean of the known numbers. -/
def average (values : List (Option ℚ)) : Option ℚ :=
  match values.filterMap id with
  | [] => none
  | known => some (known.sum / known.length)

def score (text : Text) (pairs : List MatchedPair) : ScoreSummary :=
  let tp := pairs.filter (·.matchType = .truePositive)
  let fp := pairs.filter (·.matchType = .falsePositive)
  let fn := pairs.filter (·.matchType = .falseNegative)
  let precision := ratio tp.length (tp.length + fp.length)
  let «recall» := ratio tp.length (tp.length + fn.length)
  let critical := (tp ++ fn).filter fun p =>
    p.expected.any fun expected => text.lower expected.severity = "critical"
  { truePositiveCount := tp.length, falsePositiveCount := fp.length
    falseNegativeCount := fn.length, precision, «recall», f1 := f1Score precision «recall»
    severityAccuracy := accuracy (tp.map (·.severityMatch))
    entityAccuracy := accuracy (tp.map (·.entityMatch))
    evidenceAccuracy := accuracy (tp.map (·.evidenceMatch))
    economicVarianceAvgPct := average (tp.map (·.economicVariancePct))
    criticalLeakageRecall := ratio (critical.countP (·.matchType = .truePositive)) critical.length }

/-! ## Leakage truth -/

structure ValidationLeakageTruth where
  truthLeakageId : String
  entities : List Json
  detectionFamily : Option String
  (trueLeakageValue recoverableValue : Option ℚ)
  currency : Option String

structure LeakageMatchedPair where
  matchType : MatchType
  expected : Option ValidationLeakageTruth
  actual : Option PrioritizedFinding
  economicVariancePct : Option ℚ

/-- `_candidate_matches`. -/
def candidateMatches (registry : FamilyRegistry) (leakage : ValidationLeakageTruth)
    (actual : PrioritizedFinding) : Bool :=
  match registry.lookup leakage.detectionFamily with
  | none => false
  | some mapping => mapping.covers actual

/-- What `match_leakage` does with one leakage. -/
def leakageRules (registry : FamilyRegistry) : Rules ValidationLeakageTruth LeakageMatchedPair where
  entities := (·.entities)
  family := candidateMatches registry
  missed leakage _ := .ok ⟨.falseNegative, some leakage, none, none⟩
  found leakage _ actual := ⟨.truePositive, some leakage, some actual,
    economicVariancePct leakage.trueLeakageValue actual⟩

/-- Without leakage truth there is nothing to compare. -/
def matchLeakage (registry : FamilyRegistry) (leakageTruth : List ValidationLeakageTruth)
    (actualFindings : List PrioritizedFinding) : Except MatchError (List LeakageMatchedPair) :=
  match leakageTruth with
  | [] => .ok []
  | _ :: _ => do
    let (pairs, left) ← matchLoop (leakageRules registry) leakageTruth actualFindings
    return pairs ++ left.map fun actual => ⟨.falsePositive, none, some actual, none⟩

inductive DimensionStatus
  | scored
  | partiallyScored
  | notAvailable

structure LeakageScoreSummary where
  status : DimensionStatus
  (truePositiveCount falsePositiveCount falseNegativeCount : ℕ)
  precision : Option ℚ
  «recall» : Option ℚ
  f1 : Option ℚ
  (totalTrueLeakageValueByCurrency totalRecoverableValueByCurrency : List (String × ℚ))
  (valueWeightedRecall economicVarianceAvgPct : Option ℚ)

/-- Add an amount to the entry of a currency, which is new when it is missing. -/
def addTo (totals : List (String × ℚ)) (currency : String) (amount : ℚ) : List (String × ℚ) :=
  if totals.any (·.1 = currency) then
    totals.map fun entry => if entry.1 = currency then (currency, entry.2 + amount) else entry
  else totals ++ [(currency, amount)]

def totalByCurrency (value : ValidationLeakageTruth → Option ℚ)
    (leakages : List ValidationLeakageTruth) : List (String × ℚ) :=
  leakages.foldl (fun totals leakage =>
    match value leakage with
    | none => totals
    | some amount =>
      addTo totals ((leakage.currency.filter (· ≠ "")).getD "UNSPECIFIED") amount) []

def scoreLeakage (pairs : List LeakageMatchedPair) : LeakageScoreSummary :=
  let tp := pairs.filter (·.matchType = .truePositive)
  let fp := pairs.filter (·.matchType = .falsePositive)
  let fn := pairs.filter (·.matchType = .falseNegative)
  let precision := ratio tp.length (tp.length + fp.length)
  let «recall» := ratio tp.length (tp.length + fn.length)
  let trueValues := totalByCurrency (·.trueLeakageValue) ((tp ++ fn).filterMap (·.expected))
  let totalValue := (trueValues.map (·.2)).sum
  let detectedValue := ((tp.filterMap (·.expected)).filterMap (·.trueLeakageValue)).sum
  let variance := average (tp.map (·.economicVariancePct))
  { status := if pairs = [] then .notAvailable
      else if variance.isSome then .scored else .partiallyScored
    truePositiveCount := tp.length, falsePositiveCount := fp.length
    falseNegativeCount := fn.length, precision, «recall», f1 := f1Score precision «recall»
    totalTrueLeakageValueByCurrency := trueValues
    totalRecoverableValueByCurrency :=
      totalByCurrency (·.recoverableValue) ((tp ++ fn).filterMap (·.expected))
    valueWeightedRecall := if 0 < totalValue then some (detectedValue / totalValue) else none
    economicVarianceAvgPct := variance }

end Intel4Ops.GroundTruth

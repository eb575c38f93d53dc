import Intel4Ops.Findings.Publisher
import Intel4Ops.Lib.Binary64
import Intel4Ops.Lib.Group
import Intel4Ops.Lib.Neighbours
import Intel4Ops.Revenue.Rates
import Mathlib.Data.List.MinMax
import Mathlib.Data.String.Basic

/-!
# Repeat visits

`build_repeat_visit_pairs` of `maintenance_repeat_visit_service`: the visits of one subject for the
same kind of activity and the same cause are put in order, and each one is paired with the next. A
visit that is recorded more than once is taken once, and not at all if its records differ.
-/

namespace Intel4Ops.Maintenance

open Lib Lib.Decimal
open Findings (CanonicalEvidenceCompletenessResult)
open Revenue (DataFrame Row)

/-! ## Visits -/

/-- What pandas and the standard library make of cells and texts. -/
structure Env (Cell : Type) where
  /-- `value is None or pd.isna(value)` -/
  isna : Cell → Bool
  str : Cell → String
  (strip casefold : String → String)
  /-- `pd.to_datetime(text, errors="coerce", utc=True)`, if it is an instant -/
  toDatetime : String → Option Instant

structure InterventionDatasetFields (Cell : Type) where
  datasetId : UUID
  datasetLabel : String
  dataframe : DataFrame Cell
  trustAssessmentId : UUID
  (subjectIdField interventionIdField timestampField activityCategoryField : String)
  canonicalEvidenceCompleteness : Option CanonicalEvidenceCompletenessResult := none
  relationDimensionField : Option String := none

def InterventionDatasetFields.withRows {Cell : Type} (ds : InterventionDatasetFields Cell)
    (rows : List (Row Cell)) : InterventionDatasetFields Cell :=
  { ds with dataframe := { ds.dataframe with rows } }

/-- A row that records a visit. The other rows of its dataset are left out, as nothing asks for them
there. -/
structure InterventionEvidence (Cell : Type) where
  dataset : InterventionDatasetFields Cell
  (rowReference subjectKey interventionKey : String)
  occurredAt : Instant
  (activityCategory normalizedActivityCategory : String)
  relationDimensionValue : Option String

structure RepeatVisitPair (Cell : Type) where
  (prior subsequent : InterventionEvidence Cell)
  elapsedHours : ℚ

/-- A key of `representations`. -/
structure Identity where
  (subjectKey interventionKey : String)
  deriving DecidableEq

/-- What the records of a visit have to agree on. -/
structure Signature where
  (subjectKey normalizedActivityCategory : String)
  occurredAt : Instant
  relationDimensionValue : Option String
  deriving DecidableEq

/-- A key of `related_groups`. -/
structure RelatedGroup where
  (subjectKey normalizedActivityCategory relationDimension : String)
  deriving DecidableEq

/-- The order of the records of a visit: label, id and row. -/
abbrev RepresentationKey := String ×ₗ UUID ×ₗ String

/-- The order of the pairs. -/
abbrev PairKey := String ×ₗ String ×ₗ Instant ×ₗ String ×ₗ String

/-- `Decimal(str(delta.total_seconds()))`, of a number of microseconds. -/
def totalSeconds (microseconds : ℤ) : ℚ := (Double.nearest (microseconds / 10 ^ 6)).printed

section Pairs

variable {Cell : Type} (env : Env Cell)

/-- `_text` -/
def Env.text (value : Cell) : Option String :=
  if env.isna value then none
  else
    let normalized := env.strip (env.str value)
    if normalized = "" then none else some normalized

/-- `_timestamp` -/
def Env.timestamp (value : Cell) : Option Instant :=
  if env.isna value then none else env.toDatetime (env.str value)

/-! ## Collection -/

/-- The rows of the dataset are read: its columns are there, and its evidence is complete. -/
def InterventionDatasetFields.usable (ds : InterventionDatasetFields Cell) : Bool :=
  [ds.subjectIdField, ds.interventionIdField, ds.timestampField, ds.activityCategoryField].all
      (· ∈ ds.dataframe.columns) &&
    (ds.canonicalEvidenceCompleteness.map (·.satisfied)).getD true

/-- The evidence of a row, if it is one of an eligible subject and nothing but the relation is
missing. -/
def interventionEvidence (eligibleSubjectKeys : Finset String)
    (ds : InterventionDatasetFields Cell) (row : Row Cell) :
    Option (InterventionEvidence Cell) := do
  let subjectKey ← env.text (row.cell ds.subjectIdField)
  guard (subjectKey ∈ eligibleSubjectKeys)
  let interventionKey ← env.text (row.cell ds.interventionIdField)
  let occurredAt ← env.timestamp (row.cell ds.timestampField)
  let category ← env.text (row.cell ds.activityCategoryField)
  return {
    dataset := ds.withRows []
    rowReference := row.index
    subjectKey
    interventionKey
    occurredAt
    activityCategory := category
    normalizedActivityCategory := env.casefold category
    relationDimensionValue := (ds.dataframe.present ds.relationDimensionField).bind fun field =>
      env.text (row.cell field) }

/-- The evidence of all rows, in their order. -/
def collected (datasets : List (InterventionDatasetFields Cell))
    (eligibleSubjectKeys : Finset String) : List (InterventionEvidence Cell) :=
  datasets.flatMap fun ds =>
    if ds.usable then ds.dataframe.rows.filterMap (interventionEvidence env eligibleSubjectKeys ds)
    else []

/-! ## Identity -/

namespace InterventionEvidence

def identity (e : InterventionEvidence Cell) : Identity := ⟨e.subjectKey, e.interventionKey⟩

def signature (e : InterventionEvidence Cell) : Signature :=
  ⟨e.subjectKey, e.normalizedActivityCategory, e.occurredAt, e.relationDimensionValue⟩

def representationKey (e : InterventionEvidence Cell) : RepresentationKey :=
  toLex (env.casefold e.dataset.datasetLabel, toLex (e.dataset.datasetId, e.rowReference))

/-- The group of a visit; one without a relation is in none. -/
def relatedGroup (e : InterventionEvidence Cell) : Option RelatedGroup :=
  e.relationDimensionValue.map fun value =>
    ⟨e.subjectKey, e.normalizedActivityCategory, env.casefold value⟩

end InterventionEvidence

/-- The record that stands for a visit: the first one of the least, if all have one signature. -/
def canonicalRepresentation (representations : List (InterventionEvidence Cell)) :
    Option (InterventionEvidence Cell) :=
  if (representations.map (·.signature)).dedup.length = 1 then
    representations.argmin (·.representationKey env)
  else none

/-- The visits that are recorded without conflict. -/
def deduplicated (evidence : List (InterventionEvidence Cell)) : List (InterventionEvidence Cell) :=
  (firsts (evidence.map (·.identity))).filterMap fun identity =>
    canonicalRepresentation env (group (·.identity) evidence identity)

/-! ## Groups -/

/-- The visits of each group, in the order of the first ones. -/
def relatedGroups (interventions : List (InterventionEvidence Cell)) :
    List (List (InterventionEvidence Cell)) :=
  let related := interventions.filter fun e => (e.relatedGroup env).isSome
  (firsts (related.map (·.relatedGroup env))).map (group (·.relatedGroup env) related)

/-- Two visits as a pair, if time passes between them. -/
def repeatVisitPair (prior subsequent : InterventionEvidence Cell) :
    Option (RepeatVisitPair Cell) :=
  let elapsedSeconds := totalSeconds (subsequent.occurredAt - prior.occurredAt)
  if elapsedSeconds ≤ 0 then none
  else some { prior, subsequent, elapsedHours := context (elapsedSeconds / 3600) }

/-- The visits of a group in the order of their times. -/
def ordered (interventions : List (InterventionEvidence Cell)) : List (InterventionEvidence Cell) :=
  interventions.insertionSort fun a b =>
    (toLex (a.occurredAt, env.casefold a.interventionKey) : Instant ×ₗ String) ≤
      toLex (b.occurredAt, env.casefold b.interventionKey)

/-- The pairs of a group; there are none if two visits have the same time. -/
def pairsOfGroup (interventions : List (InterventionEvidence Cell)) : List (RepeatVisitPair Cell) :=
  if (interventions.map (·.occurredAt)).Nodup then
    (neighbours (ordered env interventions)).filterMap fun pair => repeatVisitPair pair.1 pair.2
  else []

def pairKey (prior subsequent : InterventionEvidence Cell) : PairKey :=
  toLex (env.casefold prior.subjectKey, toLex (prior.normalizedActivityCategory,
    toLex (prior.occurredAt, toLex (env.casefold prior.interventionKey,
      env.casefold subsequent.interventionKey))))

/-- The pairs of all groups, group by group. -/
def relatedPairs (evidence : List (InterventionEvidence Cell)) : List (RepeatVisitPair Cell) :=
  (relatedGroups env (deduplicated env evidence)).flatMap (pairsOfGroup env)

def pairsOf (evidence : List (InterventionEvidence Cell)) : List (RepeatVisitPair Cell) :=
  (relatedPairs env evidence).insertionSort fun a b =>
    pairKey env a.prior a.subsequent ≤ pairKey env b.prior b.subsequent

def buildRepeatVisitPairs (datasets : List (InterventionDatasetFields Cell))
    (eligibleSubjectKeys : Finset String) : List (RepeatVisitPair Cell) :=
  pairsOf env (collected env datasets eligibleSubjectKeys)

end Pairs

end Intel4Ops.Maintenance

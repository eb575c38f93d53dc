import Intel4Ops.CaseMapping.Registry
import Intel4Ops.Entities.Candidates
import Intel4Ops.Lib.Texts
import Intel4Ops.Revenue.Lines
import Intel4Ops.Reviews.Model

/-!
# Concepts and columns

The stages of a case run find the columns of a dataset by its semantic decisions. A column stands
for a concept if its decision is authoritative. A dataset without the identifier of a subject is
bridged to it by another identifier, where the datasets with both give that one subject.
-/

namespace Intel4Ops.CaseStages

open Lib
open CaseMapping (canonicalizeField)
open Entities (EntityCandidate eligibleEntityKeys)
open Findings (CanonicalEvidenceCompletenessResult)
open Reviews (MachineStatus resolveEffectiveDecision)
open Revenue (DataFrame Row)

/-! ## Cells -/

/-- `pd.Timestamp`: whether it has an offset, and its seconds. -/
structure Timestamp where
  aware : Bool
  seconds : ℚ

/-- What pandas makes of texts, and of the cells that the stages write. -/
structure Env (Cell : Type) extends Revenue.Env Cell where
  /-- `None` -/
  missing : Cell
  textCell : String → Cell
  /-- `float` of a decimal -/
  floatCell : Decimal.Extended → Cell
  /-- `pd.to_datetime(text, errors="coerce")`, if it is an instant -/
  toTimestamp : String → Option Timestamp

def withColumn {Cell : Type} (df : DataFrame Cell) (name : String) (value : Row Cell → Cell) :
    DataFrame Cell where
  columns := if name ∈ df.columns then df.columns else df.columns ++ [name]
  rows := df.rows.map fun row =>
    { row with cell := fun field => if field = name then value row else row.cell field }

/-! ## Concepts -/

/-- `InterpretationDecision`, less its candidates. -/
structure InterpretationDecision where
  sourceField : String
  status : MachineStatus
  selectedConcept : Option String
  confidence : ℚ

def InterpretationDecision.Grants (d : InterpretationDecision) (concept : String) : Prop :=
  d.selectedConcept = some concept ∧
    (resolveEffectiveDecision d.status d.selectedConcept d.confidence
      none).effectiveConcept.isSome = true

instance (d : InterpretationDecision) (concept : String) : Decidable (d.Grants concept) :=
  inferInstanceAs (Decidable (_ ∧ _))

/-- `AnalysisCaseDataset`, with its canonical frame, its trust assessment and its decisions. -/
structure CaseDataset (Cell : Type) where
  (id datasetId : UUID)
  sourceLabel : String
  canonicalFrame : Option (DataFrame Cell)
  trustAssessmentId : Option UUID
  decisions : List InterpretationDecision

section Concepts

variable {Cell : Type}

/-- `_resolve_canonical_concept_field` -/
def CaseDataset.field (cd : CaseDataset Cell) (concept : String) : Option String :=
  (cd.decisions.find? (·.Grants concept)).map fun decision =>
    (canonicalizeField decision.sourceField).getD decision.sourceField

/-- `selected_concepts` -/
def CaseDataset.selectedConcepts (cd : CaseDataset Cell) : Finset String :=
  (cd.decisions.filterMap (·.selectedConcept)).toFinset

/-- `evaluate_canonical_evidence_completeness`, on the decisions for the required concepts. -/
def evaluateCanonicalEvidenceCompleteness (cd : CaseDataset Cell) (required : Finset String) :
    CanonicalEvidenceCompletenessResult :=
  let missing := (required.filter fun concept =>
    cd.decisions.all fun decision => ¬ decision.Grants concept).sort (· ≤ ·)
  { satisfied := missing.isEmpty
    missingCanonicalFields := missing }

end Concepts

/-! ## Cases -/

/-- What the stages read of a case run: the datasets, whose ids differ, and the entities. -/
structure Case (Cell : Type) where
  organizationId : UUID
  datasets : List (CaseDataset Cell)
  distinct : (datasets.map (·.id)).Nodup
  candidates : List EntityCandidate

/-- The entities that can be billed, in the order of the packs' alternative sets. -/
inductive SubjectType
  | workOrder
  | contract
  deriving DecidableEq

namespace SubjectType

/-- `candidate_subject_entity_types` -/
def declared : List SubjectType := [workOrder, contract]

def value : SubjectType → String
  | workOrder => "WORK_ORDER"
  | contract => "CONTRACT"

/-- `subject_entity_type.lower()` -/
def lower : SubjectType → String
  | workOrder => "work_order"
  | contract => "contract"

def concept : SubjectType → String
  | workOrder => "work_order_id"
  | contract => "contract_id"

end SubjectType

/-- `minimum_entity_identity_confidence` of the two revenue packs -/
def minimumEntityIdentityConfidence : ℚ := 7 / 10

section Cases

variable {Cell : Type} (env : Env Cell) (case : Case Cell)

/-- `eligible_subjects` -/
def Case.eligibleSubjects (tier : SubjectType) : List String :=
  (eligibleEntityKeys case.candidates tier.value minimumEntityIdentityConfidence).sort (· ≤ ·)

/-! ## Bridges -/

/-- The values of two identifiers that stand in one row. -/
def bridgePairs (bridgeConcept subjectConcept : String) : List (String × String) :=
  case.datasets.flatMap fun cd =>
    match cd.canonicalFrame, cd.field bridgeConcept, cd.field subjectConcept with
    | some df, some bridgeField, some subjectField =>
      if bridgeField ∈ df.columns ∧ subjectField ∈ df.columns then
        (df.rows.filter fun row =>
          env.notna (row.cell bridgeField) && env.notna (row.cell subjectField)).map fun row =>
            (env.str (row.cell bridgeField), env.str (row.cell subjectField))
      else []
    | _, _, _ => []

/-- `_resolve_identifier_bridge_map`: the values that stand with one subject only. -/
def resolveIdentifierBridgeMap (bridgeConcept subjectConcept : String) : List (String × String) :=
  let pairs := bridgePairs env case bridgeConcept subjectConcept
  (firsts (pairs.map (·.1))).filterMap fun value =>
    match ((group (·.1) pairs value).map (·.2)).dedup with
    | [subject] => some (value, subject)
    | _ => none

/-- The column of a subject: the frame, perhaps with a bridged column, the name of the column, and
the concept that it rests on. -/
structure SubjectField (Cell : Type) where
  dataframe : DataFrame Cell
  (field evidenceConcept : String)

/-- The subject of a cell of the bridge column. -/
def bridgedCell (bridgeMap : List (String × String)) (cell : Cell) : Cell :=
  if env.notna cell = true then
    ((bridgeMap.find? (·.1 = env.str cell)).map fun entry => env.textCell entry.2).getD env.missing
  else env.missing

/-- The column of a subject through one bridge concept. -/
def bridgedSubjectField (cd : CaseDataset Cell) (df : DataFrame Cell)
    (subjectConcept bridgeConcept : String) : Option (SubjectField Cell) := do
  let bridgeMap := resolveIdentifierBridgeMap env case bridgeConcept subjectConcept
  guard (bridgeMap ≠ [])
  let decision ← cd.decisions.find? (·.selectedConcept = some bridgeConcept)
  let bridgeField := (canonicalizeField decision.sourceField).getD decision.sourceField
  guard (bridgeField ∈ df.columns)
  let column := "__p3xxi2c_bridged_subject__" ++ bridgeConcept ++ "__" ++ subjectConcept
  let bridged := withColumn df column fun row => bridgedCell env bridgeMap (row.cell bridgeField)
  guard (bridged.rows.any fun row => env.notna (row.cell column))
  return ⟨bridged, column, bridgeConcept⟩

/-- `_resolve_subject_field_for_dataset` -/
def resolveSubjectField (cd : CaseDataset Cell) (df : DataFrame Cell) (subjectConcept : String)
    (allowBridge : Bool) : Option (SubjectField Cell) :=
  match (cd.field subjectConcept).filter (· ∈ df.columns) with
  | some field => some ⟨df, field, subjectConcept⟩
  | none =>
    if allowBridge then
      ((cd.selectedConcepts.erase subjectConcept).sort (· ≤ ·)).findSome?
        (bridgedSubjectField env case cd df subjectConcept)
    else none

end Cases

end Intel4Ops.CaseStages

import Intel4Ops.CaseMapping.Registry
import Intel4Ops.Reviews.Model
import Mathlib.Data.Multiset.Defs

/-!
# The mapping bridge

The columns of a dataset are mapped to canonical fields: by a known name, and the column is renamed,
or by the decision of the semantic interpreter, and the column is copied under the canonical name. A
second promotion to a canonical field is left to a review. A second known name is not, and neither
is a name that follows the promotion.
-/

namespace Intel4Ops.CaseMapping

open Reviews

/-! ## Frames and decisions -/

/-- A column of a frame. -/
structure Column (V : Type*) where
  name : String
  values : List V

/-- The columns of a dataset, whose names are distinct. -/
structure SourceFrame (V : Type*) where
  columns : List (Column V)
  distinct : (columns.map (·.name)).Nodup

/-- What the bridge reads of an interpretation decision. -/
structure FieldDecision where
  selectedConcept : Option String
  status : MachineStatus

/-- `interpret_dataset` without a provider: the decision about each field of some columns, whatever
their order. -/
abbrev Interpreter (V : Type*) := Multiset (Column V) → String → Option FieldDecision

variable {V : Type*}

/-! ## Mappings -/

inductive MappingStatus
  | autoMapped
  | needsReview
  | missingRequiredField
  | ignored

inductive DetectionStatus
  | confirmed
  | needsReview
  | unknown
  deriving DecidableEq

/-- `AnalysisCaseFieldMapping`, less its keys. -/
structure FieldMapping where
  sourceField : String
  canonicalField : Option String
  mappingStatus : MappingStatus

/-- `DOMAIN_SIGNATURES` -/
def domainSignatures : List (String × List String) :=
  [("maintenance", ["asset_id", "failure_code", "downtime_hours"]),
    ("maintenance", ["asset_id", "operational_event_id", "activity_category"]),
    ("operations", ["operational_event_id", "asset_id"]),
    ("fuel_energy", ["asset_id", "fuel_quantity"]),
    ("revenue", ["transaction_amount", "event_date"]),
    ("asset_master", ["asset_id"])]

/-- The fields that a confirmed domain requires, by its first signature. -/
def requiredFields (domain : Option String) (detection : Option DetectionStatus) : List String :=
  if detection = some .confirmed then
    ((domainSignatures.find? fun signature => some signature.1 = domain).map (·.2)).getD []
  else []

/-- How a column is read: by a known name, or as the interpreter decides. -/
inductive Reading
  | known (canonical : String)
  | promoted (canonical : String)
  | uncertain (canonical : String)
  | unread

/-- The reading of a column, where the known names come first. -/
def readField (semantic : String → Option FieldDecision) (sourceField : String) : Reading :=
  match canonicalizeField sourceField with
  | some canonical => .known canonical
  | none =>
    match semantic sourceField with
    | some ⟨some concept, status⟩ =>
      match status with
      | .autoAccepted | .humanConfirmed => .promoted concept
      | .acceptedWithFlag | .reviewRequired => .uncertain concept
      | .unresolved | .humanRejected => .unread
    | _ => .unread

/-- What the loop over the columns has gathered. -/
structure Progress where
  renameMap : List (String × String) := []
  promotedColumns : List (String × String) := []
  mappings : List FieldMapping := []
  mappedCanonicalFields : List String := []
  hasMappingUncertainty : Bool := false

/-- One pass of the loop over the columns. -/
def Progress.record (p : Progress) (field : String × Reading) : Progress :=
  match field with
  | (sourceField, .known canonical) =>
    { p with
      renameMap := p.renameMap ++ [(sourceField, canonical)]
      mappedCanonicalFields := p.mappedCanonicalFields ++ [canonical]
      mappings := p.mappings ++ [⟨sourceField, some canonical, .autoMapped⟩] }
  | (sourceField, .promoted canonical) =>
    if canonical ∈ p.mappedCanonicalFields then
      -- a second field claims the canonical field
      { p with
        hasMappingUncertainty := true
        mappings := p.mappings ++ [⟨sourceField, some canonical, .needsReview⟩] }
    else
      { p with
        promotedColumns := p.promotedColumns ++ [(sourceField, canonical)]
        mappedCanonicalFields := p.mappedCanonicalFields ++ [canonical]
        mappings := p.mappings ++ [⟨sourceField, some canonical, .autoMapped⟩] }
  | (sourceField, .uncertain canonical) =>
    { p with
      hasMappingUncertainty := true
      mappings := p.mappings ++ [⟨sourceField, some canonical, .needsReview⟩] }
  | (sourceField, .unread) =>
    { p with mappings := p.mappings ++ [⟨sourceField, none, .ignored⟩] }

/-- The loop over the columns. -/
def Progress.run (p : Progress) (fields : List (String × Reading)) : Progress :=
  fields.foldl Progress.record p

/-! ## The bridge -/

/-- The columns of a dataset with their readings. -/
def SourceFrame.fields (df : SourceFrame V) (interpreter : Interpreter V) :
    List (String × Reading) :=
  df.columns.map fun column => (column.name, readField (interpreter df.columns) column.name)

/-- `dataframe[source_field]` -/
def SourceFrame.valuesOf (df : SourceFrame V) (sourceField : String) : List V :=
  ((df.columns.find? (·.name = sourceField)).map (·.values)).getD []

/-- `dataframe.rename(columns=rename_map)` -/
def renameColumns (renameMap : List (String × String)) (columns : List (Column V)) :
    List (Column V) :=
  columns.map fun column => { column with name := (renameMap.lookup column.name).getD column.name }

def addPromoted (df : SourceFrame V) (frame : List (Column V)) (promotion : String × String) :
    List (Column V) :=
  if promotion.2 ∈ frame.map (·.name) then frame
  else frame ++ [⟨promotion.2, df.valuesOf promotion.1⟩]

/-- The required fields that no column is mapped to, in order. -/
def missingRequired (required mapped : List String) : List String :=
  (required.filter (· ∉ mapped)).insertionSort (· ≤ ·)

def missingRow (field : String) : FieldMapping :=
  ⟨"<missing:" ++ field ++ ">", some field, .missingRequiredField⟩

/-- `MappingBridgeResult` -/
structure MappingBridgeResult (V : Type*) where
  canonicalDataframe : List (Column V)
  fieldMappings : List FieldMapping
  overallStatus : MappingStatus

/-- `AnalysisCaseMappingService.apply` -/
def apply (interpreter : Interpreter V) (df : SourceFrame V) (domain : Option String)
    (detection : Option DetectionStatus) : MappingBridgeResult V :=
  let progress := Progress.run {} (df.fields interpreter)
  let missing := missingRequired (requiredFields domain detection) progress.mappedCanonicalFields
  { canonicalDataframe :=
      progress.promotedColumns.foldl (addPromoted df) (renameColumns progress.renameMap df.columns)
    fieldMappings := progress.mappings ++ missing.map missingRow
    overallStatus :=
      if missing ≠ [] ∨ progress.hasMappingUncertainty = true then .needsReview else .autoMapped }

end Intel4Ops.CaseMapping

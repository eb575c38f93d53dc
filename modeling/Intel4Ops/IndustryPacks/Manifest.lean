import Intel4Ops.Lib.Except
import Intel4Ops.Lib.Ident
import Intel4Ops.Lib.Json

/-!
# Manifests of industry packs

A manifest lists components as JSON objects. `manifestErrors` is what validation says of it, and
`componentRows` are the rows that a version is created with. Of a value in a manifest only what the
service asks is kept: its text, whether it counts as true, and whether it can be a key.
-/

namespace Intel4Ops.IndustryPacks

open Lib

/-- The types of component that the table accepts. -/
inductive ComponentType
  | ontologyMapping | canonicalExtension | metricDefinition | ruleBinding | evidencePolicy
  | economicMapping | recoveryPlaybook | commandCapability | usageMeterBinding
  deriving DecidableEq

def ComponentType.value : ComponentType → String
  | ontologyMapping => "ontology_mapping"
  | canonicalExtension => "canonical_extension"
  | metricDefinition => "metric_definition"
  | ruleBinding => "rule_binding"
  | evidencePolicy => "evidence_policy"
  | economicMapping => "economic_mapping"
  | recoveryPlaybook => "recovery_playbook"
  | commandCapability => "command_capability"
  | usageMeterBinding => "usage_meter_binding"

/-- `REQUIRED_COMPONENTS`, which are all types. -/
def requiredComponents : List ComponentType :=
  [.ontologyMapping, .canonicalExtension, .metricDefinition, .ruleBinding, .evidencePolicy,
    .economicMapping, .recoveryPlaybook, .commandCapability, .usageMeterBinding]

def ComponentType.ofText? (text : String) : Option ComponentType :=
  requiredComponents.find? (·.value = text)

/-- A value of a manifest. Numbers and truth values come with the text that `str` makes of them, and
so do lists and objects. -/
inductive ItemValue
  | text (s : String)
  | number (x : ℚ) (printed : String)
  | null
  | container (printed : String) (empty : Bool)
  deriving DecidableEq

/-- `str(value)` -/
def ItemValue.printed : ItemValue → String
  | text s => s
  | number _ printed => printed
  | null => "None"
  | container printed _ => printed

/-- `bool(value)` -/
def ItemValue.truthy : ItemValue → Bool
  | text s => s ≠ ""
  | number x _ => x ≠ 0
  | null => false
  | container _ empty => !empty

/-- The value as a key, unless it cannot be hashed. -/
def ItemValue.key? : ItemValue → Option Scalar
  | text s => some (.str s)
  | number x _ => some (.num x)
  | null => some .null
  | container _ _ => none

/-- An entry of the component list. `config` is given by its canonical text. -/
inductive ManifestItem
  | object (type code universalParent : Option ItemValue) (config : Option String)
  | other

/-- `manifest_json`: its components, where they are a list. -/
structure Manifest where
  components : Option (List ManifestItem)

/-- A failed request. -/
inductive Error
  | service (code message : String) (status : ℕ)
  | keyError
  | typeError
  | integrity
  deriving DecidableEq

/-! ## Validation -/

/-- What validation finds in a manifest. -/
inductive ManifestError
  | componentsNotList
  | notObject
  | duplicateComponent (type code : Scalar)
  | lacksUniversalParent (code : ItemValue)
  | missingComponentTypes (types : List ComponentType)
  deriving DecidableEq

/-- The loop variables of `_manifest_errors`. -/
structure Inspection where
  errors : List ManifestError
  kinds : List String
  keys : List (Scalar × Scalar)

/-- The body of the loop of `_manifest_errors`. -/
def Inspection.add (seen : Inspection) : ManifestItem → Except Error Inspection
  | .other => .ok { seen with errors := seen.errors ++ [.notObject] }
  | .object type code universalParent _ => do
    let typeKey ← orFail (type.getD .null).key? .typeError
    let codeKey ← orFail (code.getD .null).key? .typeError
    let duplicate := if ∃ key ∈ seen.keys, key = (typeKey, codeKey) then
      [ManifestError.duplicateComponent typeKey codeKey] else []
    let parentless := if (universalParent.getD .null).truthy then []
      else [ManifestError.lacksUniversalParent (code.getD .null)]
    return {
      errors := seen.errors ++ duplicate ++ parentless
      kinds := (type.getD .null).printed :: seen.kinds
      keys := (typeKey, codeKey) :: seen.keys }

/-- The required types that were not seen. -/
def Inspection.missing (seen : Inspection) : List ManifestError :=
  match requiredComponents.filter fun type => type.value ∉ seen.kinds with
  | [] => []
  | types => [.missingComponentTypes types]

/-- `_manifest_errors` -/
def Manifest.manifestErrors (manifest : Manifest) : Except Error (List ManifestError) :=
  match manifest.components with
  | none => .ok [.componentsNotList]
  | some items => do
    let seen ← items.foldlM Inspection.add ⟨[], [], []⟩
    return seen.errors ++ seen.missing

/-- The manifest passes validation. -/
def Manifest.Valid (manifest : Manifest) : Prop := manifest.manifestErrors = .ok []

instance (manifest : Manifest) : Decidable manifest.Valid :=
  inferInstanceAs (Decidable (_ = Except.ok ([] : List ManifestError)))

/-! ## Rows -/

/-- `IndustryPackComponent`; `configuration` is given by its canonical text. -/
structure Component where
  packVersionId : UUID
  componentType : ComponentType
  (code universalParent configuration : String)
  deriving DecidableEq

/-- `uq_pack_component` -/
def Component.clash (a b : Component) : Prop :=
  a.packVersionId = b.packVersionId ∧ a.componentType = b.componentType ∧ a.code = b.code

instance (a b : Component) : Decidable (a.clash b) := inferInstanceAs (Decidable (_ ∧ _))

/-- The row of an entry; entries that are no objects are passed over. -/
def ManifestItem.row (versionId : UUID) : ManifestItem → Except Error (Option Component)
  | .other => .ok none
  | .object type code universalParent config => do
    let type ← orFail type .keyError
    let code ← orFail code .keyError
    let universalParent ← orFail universalParent .keyError
    let componentType ← orFail (ComponentType.ofText? type.printed) .integrity
    return some {
      packVersionId := versionId
      componentType := componentType
      code := code.printed
      universalParent := universalParent.printed
      configuration := config.getD "\x7b\x7d" }

/-- The rows that `_replace_components` adds. -/
def Manifest.componentRows (manifest : Manifest) (versionId : UUID) :
    Except Error (List Component) := do
  let rows ← (manifest.components.getD []).mapM (·.row versionId)
  return rows.filterMap id

end Intel4Ops.IndustryPacks

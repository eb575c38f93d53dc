import Intel4Ops.Lib.Except
import Intel4Ops.Lib.Ident
import Intel4Ops.Lib.Json
import Mathlib.Data.List.Dedup
import Mathlib.Data.List.Sort

/-!
# Ground-truth validation

`app/ground_truth_validation`: the normalizer of the simple package shape, the integrity check, and
the matchers that compare expected findings and leakage truth with production findings. What the
standard library makes of texts is a parameter, `Text`; floats are the rationals that they stand
for. Texts of failures and reasons keep the data that they name.
-/

namespace Intel4Ops.GroundTruth

open Lib

/-- The operations on texts: `str`, `lower`, `strip`, `isupper` and `Decimal`. -/
structure Text where
  ofJson : Json → String
  (lower strip : String → String)
  isUpper : String → Bool
  decimal : String → Option ℚ

/-! ## The ontology -/

structure NormalizedExpectedFinding where
  (truthFindingId severity : String)
  (domain expectedDetectionFamily linkedLeakageId : Option String)
  entities : List Json
  evidenceRefs : List String
  expectedEconomicImpact : Option ℚ
  currency : Option String
  description : String

structure NormalizedLeakageTruth where
  truthLeakageId : String
  entities : List Json
  timeWindow : Option (List (String × Json))
  detectionFamily : Option String
  (trueLeakageValue recoverableValue : Option ℚ)
  currency : Option String

structure NormalizedCausalTruth where
  truthCausalId : String
  (linkedLeakageId linkedFindingId : Option String)

structure NormalizedDataQualityTruth where
  truthDqId : String

structure NormalizedDocument where
  (declaredRole detectedRole storageReference checksum : Option String)

structure NormalizedManifest where
  checksums : List (String × String)

structure NormalizedPackage where
  (adapterCode adapterVersion schemaVersion : String)
  manifest : Option NormalizedManifest
  expectedFindings : List NormalizedExpectedFinding
  leakageTruth : List NormalizedLeakageTruth
  causalTruth : List NormalizedCausalTruth
  dataQualityTruth : List NormalizedDataQualityTruth
  expectedCleanAreas : List String
  tolerance : List (String × Json)
  documents : List NormalizedDocument

/-! ## The normalizer -/

/-- How normalization fails: a format error with the path that it names, or a value that `Decimal`
does not read. -/
inductive NormalizeError
  | notAList (path : String)
  | notAnObject (path : String)
  | required (path : String)
  | duplicate (code : String)
  | invalidOperation

/-- A field that has to be a non-empty text. -/
def requiredText (path : String) : Option Json → Except NormalizeError String
  | some (.str s) => if s = "" then .error (.required path) else .ok s
  | _ => .error (.required path)

/-- A field that has to be a list, and is empty when it is missing. -/
def listField (path : String) : Option Json → Except NormalizeError (List Json)
  | none => .ok []
  | some (.arr items) => .ok items
  | some _ => .error (.notAList path)

/-- A field that has to be an object, and is empty when it is missing. -/
def objectField (path : String) : Option Json → Except NormalizeError (List (String × Json))
  | none => .ok []
  | some (.obj fields) => .ok fields
  | some _ => .error (.notAnObject path)

/-- `Decimal(str(impact))`, unless the impact is missing. -/
def impactField (text : Text) : Option Json → Except NormalizeError (Option ℚ)
  | none => .ok none
  | some .null => .ok none
  | some impact => (orFail (text.decimal (text.ofJson impact)) .invalidOperation).map some

/-- The currency, when it is a text. -/
def currencyField : Option Json → Option String
  | some (.str s) => some s
  | _ => none

def findingPath (index : ℕ) : String := "expected_findings[" ++ toString index ++ "]"

def normalizeFinding (text : Text) (index : ℕ) (seenCodes : List String) :
    Json → Except NormalizeError NormalizedExpectedFinding
  | .obj raw => do
    let path := findingPath index
    let code ← requiredText (path ++ ".expected_finding_code") (Json.field raw "expected_finding_code")
    ensure (code ∉ seenCodes) (.duplicate code)
    let domain ← requiredText (path ++ ".domain") (Json.field raw "domain")
    let severity ← requiredText (path ++ ".severity") (Json.field raw "severity")
    let entities ← listField (path ++ ".entities") (Json.field raw "entities")
    let evidenceRefs ← listField (path ++ ".evidence_refs") (Json.field raw "evidence_refs")
    let impact ← impactField text (Json.field raw "expected_economic_impact")
    return {
      truthFindingId := code
      severity
      domain := some domain
      expectedDetectionFamily := none
      linkedLeakageId := none
      entities
      evidenceRefs := evidenceRefs.map text.ofJson
      expectedEconomicImpact := impact
      currency := currencyField (Json.field raw "currency")
      description := ((Json.field raw "description").map text.ofJson).getD "" }
  | _ => .error (.notAnObject (findingPath index))

/-- The loop over the findings, with the codes seen so far. -/
def normalizeFindings (text : Text) : ℕ → List String → List Json →
    Except NormalizeError (List NormalizedExpectedFinding)
  | _, _, [] => .ok []
  | index, seenCodes, raw :: rest => do
    let finding ← normalizeFinding text index seenCodes raw
    let findings ← normalizeFindings text (index + 1) (finding.truthFindingId :: seenCodes) rest
    return finding :: findings

def rawFindings : Option Json → Except NormalizeError (List Json)
  | some (.arr items) => .ok items
  | _ => .error (.notAList "expected_findings")

def normalizeGroundTruth (text : Text) (payload : List (String × Json)) :
    Except NormalizeError NormalizedPackage := do
  let raw ← rawFindings (Json.field payload "expected_findings")
  let findings ← normalizeFindings text 0 [] raw
  let cleanAreas ← listField "expected_clean_areas" (Json.field payload "expected_clean_areas")
  let tolerance ← objectField "tolerance" (Json.field payload "tolerance")
  return {
    adapterCode := "intel4ops_simple_v1"
    adapterVersion := "1.0"
    schemaVersion := "intel4ops_simple_v1"
    manifest := none
    expectedFindings := findings
    leakageTruth := []
    causalTruth := []
    dataQualityTruth := []
    expectedCleanAreas := cleanAreas.map text.ofJson
    tolerance
    documents := [] }

/-! ## The integrity check -/

inductive IssueSeverity
  | warning
  | error

structure IntegrityIssue where
  severity : IssueSeverity
  code : String
  (documentRole truthRef : Option String)

/-- `_check_duplicates`: one issue for every truth id that occurs twice, in their order. -/
def checkDuplicates (ids : List String) (documentRole : String) : List IntegrityIssue :=
  ((ids.filter fun id => 1 < ids.count id).dedup.insertionSort (· ≤ ·)).map fun duplicate =>
    ⟨.error, "duplicate_truth_id", some documentRole, some duplicate⟩

/-- The link names no declared id. -/
def Dangling (declared : List String) (link : Option String) : Prop :=
  ∃ id ∈ link, id ≠ "" ∧ id ∉ declared

instance (declared : List String) (link : Option String) : Decidable (Dangling declared link) :=
  inferInstanceAs (Decidable (∃ id ∈ link, _))

/-- The code is present and not three capital letters. -/
def InvalidCurrency (text : Text) (currency : Option String) : Prop :=
  ∃ code ∈ currency, code ≠ "" ∧ (code.length ≠ 3 ∨ text.isUpper code = false)

instance (text : Text) (currency : Option String) : Decidable (InvalidCurrency text currency) :=
  inferInstanceAs (Decidable (∃ code ∈ currency, _))

/-- A time window without the keys of one. -/
def MalformedWindow (window : Option (List (String × Json))) : Prop :=
  ∃ fields ∈ window, ∀ key ∈ fields.map (·.1), key ≠ "start" ∧ key ≠ "end"

instance (window : Option (List (String × Json))) : Decidable (MalformedWindow window) :=
  inferInstanceAs (Decidable (∃ fields ∈ window, _))

def declaredChecksum (manifest : NormalizedManifest) (document : NormalizedDocument) :
    Option String :=
  document.storageReference.bind fun reference =>
    if reference = "" then none
    else ((reference.splitOn "/").getLast?).bind fun filename =>
      (manifest.checksums.find? (·.1 = filename)).map (·.2)

/-- The document has a checksum, the manifest declares one, and they differ. -/
def ChecksumMismatch (manifest : Option NormalizedManifest) (document : NormalizedDocument) :
    Prop :=
  ∃ m ∈ manifest, ∃ checksum ∈ document.checksum, checksum ≠ "" ∧
    ∃ expected ∈ declaredChecksum m document, expected ≠ "" ∧ expected ≠ checksum

instance (manifest : Option NormalizedManifest) (document : NormalizedDocument) :
    Decidable (ChecksumMismatch manifest document) :=
  inferInstanceAs (Decidable (∃ m ∈ manifest, _))

def validatePackageIntegrity (text : Text) (package : NormalizedPackage) : List IntegrityIssue :=
  let findingIds := package.expectedFindings.map (·.truthFindingId)
  let leakageIds := package.leakageTruth.map (·.truthLeakageId)
  checkDuplicates findingIds "expected_findings" ++
    checkDuplicates leakageIds "leakage_truth" ++
    checkDuplicates (package.causalTruth.map (·.truthCausalId)) "causal_truth" ++
    checkDuplicates (package.dataQualityTruth.map (·.truthDqId)) "data_quality_truth" ++
    ((package.expectedFindings.filter (Dangling leakageIds ·.linkedLeakageId)).map fun finding =>
      ⟨.error, "dangling_leakage_reference", some "expected_findings",
        some finding.truthFindingId⟩) ++
    (package.causalTruth.flatMap fun causal =>
      (if Dangling leakageIds causal.linkedLeakageId then
        [⟨.error, "dangling_leakage_reference", some "causal_truth", some causal.truthCausalId⟩]
      else []) ++
      if Dangling findingIds causal.linkedFindingId then
        [⟨.warning, "dangling_finding_reference", some "causal_truth", some causal.truthCausalId⟩]
      else []) ++
    ((package.expectedFindings.filter (InvalidCurrency text ·.currency)).map fun finding =>
      ⟨.warning, "invalid_currency_code", some "expected_findings", some finding.truthFindingId⟩) ++
    ((package.leakageTruth.filter (InvalidCurrency text ·.currency)).map fun leakage =>
      ⟨.warning, "invalid_currency_code", some "leakage_truth", some leakage.truthLeakageId⟩) ++
    ((package.leakageTruth.filter (MalformedWindow ·.timeWindow)).map fun leakage =>
      ⟨.warning, "malformed_time_window", some "leakage_truth", some leakage.truthLeakageId⟩) ++
    (package.documents.filter (ChecksumMismatch package.manifest)).map fun document =>
      ⟨.error, "manifest_checksum_mismatch",
        (document.detectedRole.filter (· ≠ "")).orElse fun _ => document.declaredRole, none⟩

end Intel4Ops.GroundTruth

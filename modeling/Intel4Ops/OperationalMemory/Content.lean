import Intel4Ops.Lib.Except
import Intel4Ops.Lib.Ident
import Mathlib.Data.List.Sort

/-!
# What operational memory remembers

The values that a memory can hold, the bounds that `_bounded_json` puts on stored documents, and the
normalized subjects and contexts that say which memory a candidate is about. A dictionary that a
caller sends is given by its canonical text, and a digest by what it digests. The Unicode database,
the search for secrets and the reading of a dictionary as a model are parameters.
-/

namespace Intel4Ops.OperationalMemory

open Lib

/-! ## Values -/

/-- `MemoryCategory` -/
inductive Category
  | fieldMapping | schemaPattern | terminology
  deriving DecidableEq

/-- The kinds of subject. -/
inductive SubjectKind
  | sourceField | sourceSchema | term
  deriving DecidableEq

/-- `canonical_type_kind` -/
inductive CanonicalTypeKind
  | entity | event | metric
  deriving DecidableEq

/-- `concept_kind` -/
inductive ConceptKind
  | entity | event | metric | field
  deriving DecidableEq

/-- `FieldMappingPayload` -/
structure FieldMappingPayload where
  (sourceFieldPath sourceFieldType : String)
  canonicalTypeKind : CanonicalTypeKind
  (canonicalTypeId canonicalFieldDefinitionId : UUID)
  (canonicalFieldCode schemaFingerprint : String)
  (mappingTransformCode unitContext : Option String)
  deriving DecidableEq

/-- `RecognizedFieldSignature` -/
structure RecognizedFieldSignature where
  (fieldNameNormalized sourceType : String)
  canonicalFieldDefinitionId : Option UUID
  deriving DecidableEq

/-- `SchemaPatternPayload` -/
structure SchemaPatternPayload where
  (schemaFingerprint canonicalDomain : String)
  recognizedFieldSignatures : List RecognizedFieldSignature
  (sourceSystemFamily sourceEntity : Option String)
  deriving DecidableEq

/-- `TerminologyPayload` -/
structure TerminologyPayload where
  termNormalized : String
  conceptKind : ConceptKind
  (conceptCode canonicalDomain : String)
  contextQualifiers : List String
  deriving DecidableEq

/-- A dictionary that was read as one of `_PAYLOAD_MODELS`. -/
inductive ValuePayload
  | fieldMapping (payload : FieldMappingPayload)
  | schemaPattern (payload : SchemaPatternPayload)
  | terminology (payload : TerminologyPayload)
  deriving DecidableEq

def ValuePayload.category : ValuePayload → Category
  | fieldMapping _ => .fieldMapping
  | schemaPattern _ => .schemaPattern
  | terminology _ => .terminology

/-- The field definition that `value_payload.get("canonical_field_definition_id")` finds. -/
def ValuePayload.canonicalFieldDefinitionId : ValuePayload → Option UUID
  | fieldMapping payload => some payload.canonicalFieldDefinitionId
  | _ => none

/-- A text with `Field(min_length=1, max_length=limit)`. -/
def sized (limit : ℕ) (text : String) : Bool := 1 ≤ text.length && text.length ≤ limit

/-- An optional text with `Field(max_length=limit)`. -/
def capped (limit : ℕ) (text : Option String) : Bool := text.all (·.length ≤ limit)

def RecognizedFieldSignature.withinBounds (s : RecognizedFieldSignature) : Bool :=
  sized 500 s.fieldNameNormalized && sized 100 s.sourceType

/-- The bounds that the models put on their fields. -/
def ValuePayload.withinBounds : ValuePayload → Bool
  | fieldMapping p =>
    sized 500 p.sourceFieldPath && sized 100 p.sourceFieldType && sized 150 p.canonicalFieldCode &&
      sized 255 p.schemaFingerprint && capped 100 p.mappingTransformCode && capped 80 p.unitContext
  | schemaPattern p =>
    sized 255 p.schemaFingerprint && sized 100 p.canonicalDomain &&
      (1 ≤ p.recognizedFieldSignatures.length && p.recognizedFieldSignatures.length ≤ 50) &&
      p.recognizedFieldSignatures.all (·.withinBounds) && capped 100 p.sourceSystemFamily &&
      capped 500 p.sourceEntity
  | terminology p =>
    sized 500 p.termNormalized && sized 150 p.conceptCode && sized 100 p.canonicalDomain &&
      p.contextQualifiers.length ≤ 10

/-- What the service takes from outside: Unicode, the search for secrets, and pydantic. -/
structure Env where
  /-- `unicodedata.normalize("NFKC", value)` -/
  nfkc : String → String
  /-- `str.casefold` -/
  casefold : String → String
  /-- `\w` -/
  isWord : Char → Bool
  /-- `\s` -/
  isSpace : Char → Bool
  /-- `_SECRET.search` -/
  secret : String → Bool
  /-- The model that a dictionary, given by its canonical text, is read as, before the bounds on the
  fields are checked. -/
  modelValidate : Category → String → Option ValuePayload

/-- A failed request. -/
inductive Error
  | service (code message : String) (status : ℕ)
  | integrity
  deriving DecidableEq

/-- `_fail` with the status that it has by default. -/
def Error.fail (code message : String) : Error := .service code message 422

/-- `_SUBJECTS` -/
def Category.subject : Category → SubjectKind
  | fieldMapping => .sourceField
  | schemaPattern => .sourceSchema
  | terminology => .term

/-- `_validate_subject_pair` -/
def validateSubjectPair (category : Category) (subjectKind : SubjectKind) : Except Error Unit :=
  ensure (category.subject = subjectKind)
    (.fail "CATEGORY_SUBJECT_MISMATCH" "Category and subject kind are incompatible")

/-- `_validate_payload` -/
def validatePayload (env : Env) (category : Category) (payload : String) :
    Except Error ValuePayload :=
  orFail ((env.modelValidate category payload).filter fun value =>
      value.category = category && value.withinBounds)
    (.fail "CATEGORY_PAYLOAD_INVALID" "Category payload is invalid")

/-! ## Bounded documents -/

/-- A JSON document without numbers. -/
inductive Document
  | null
  | bool (b : Bool)
  | uuid (id : UUID)
  | text (s : String)
  | list (items : List Document)
  | dict (fields : List (String × Document))

/-- A text, or `null`. -/
def Document.optional (text : Option String) : Document := text.elim .null .text

def CanonicalTypeKind.value : CanonicalTypeKind → String
  | entity => "entity"
  | event => "event"
  | metric => "metric"

def ConceptKind.value : ConceptKind → String
  | entity => "entity"
  | event => "event"
  | metric => "metric"
  | field => "field"

def RecognizedFieldSignature.document (s : RecognizedFieldSignature) : Document :=
  .dict [("field_name_normalized", .text s.fieldNameNormalized),
    ("source_type", .text s.sourceType),
    ("canonical_field_definition_id", s.canonicalFieldDefinitionId.elim .null .uuid)]

/-- `model_dump(mode="json")` of a value. -/
def ValuePayload.document : ValuePayload → Document
  | fieldMapping p =>
    .dict [("source_field_path", .text p.sourceFieldPath),
      ("source_field_type", .text p.sourceFieldType),
      ("canonical_type_kind", .text p.canonicalTypeKind.value),
      ("canonical_type_id", .uuid p.canonicalTypeId),
      ("canonical_field_definition_id", .uuid p.canonicalFieldDefinitionId),
      ("canonical_field_code", .text p.canonicalFieldCode),
      ("schema_fingerprint", .text p.schemaFingerprint),
      ("mapping_transform_code", .optional p.mappingTransformCode),
      ("unit_context", .optional p.unitContext)]
  | schemaPattern p =>
    .dict [("schema_fingerprint", .text p.schemaFingerprint),
      ("canonical_domain", .text p.canonicalDomain),
      ("recognized_field_signatures", .list (p.recognizedFieldSignatures.map (·.document))),
      ("source_system_family", .optional p.sourceSystemFamily),
      ("source_entity", .optional p.sourceEntity)]
  | terminology p =>
    .dict [("term_normalized", .text p.termNormalized),
      ("concept_kind", .text p.conceptKind.value),
      ("concept_code", .text p.conceptCode),
      ("canonical_domain", .text p.canonicalDomain),
      ("context_qualifiers", .list (p.contextQualifiers.map .text))]

/-- `_CONTROL` -/
def isControl (c : Char) : Bool :=
  c.toNat ≤ 0x08 || c.toNat = 0x0b || c.toNat = 0x0c || (0x0e ≤ c.toNat && c.toNat ≤ 0x1f) ||
    c.toNat = 0x7f

/-- The words of `_PROHIBITED_KEY`. -/
def prohibitedWords : List String :=
  ["amount", "price", "cost", "revenue", "salary", "employee", "customer", "vendor", "contract",
    "password", "secret", "token", "credential", "prompt", "response", "raw_row", "document"]

/-- `_PROHIBITED_KEY.search` -/
def prohibitedKey (key : String) : Bool :=
  let lowered := key.toList.map Char.toLower
  prohibitedWords.any fun word => lowered.tails.any (word.toList.isPrefixOf ·)

/-- `_fail("JSON_BOUNDS_EXCEEDED", …)` -/
def boundsExceeded (label what : String) : Error := .fail "JSON_BOUNDS_EXCEEDED" (label ++ what)

/-- `_fail("SENSITIVE_MEMORY_CONTENT", …)` -/
def sensitiveContent (label : String) : Error :=
  .fail "SENSITIVE_MEMORY_CONTENT" (label ++ " contains prohibited content")

mutual

/-- `visit` of `_bounded_json` -/
def visit (env : Env) (label : String) : Document → ℕ → Bool → Except Error Unit
  | .dict fields, depth, top => do
    ensure (depth ≤ 3) (boundsExceeded label " exceeds maximum nesting depth")
    ensure (fields.length ≤ if top then 16 else 12)
      (boundsExceeded label " contains too many keys")
    visitFields env label fields depth
  | .list items, depth, _ => do
    ensure (depth ≤ 3) (boundsExceeded label " exceeds maximum nesting depth")
    ensure (items.length ≤ 20 ∨ label = "value_payload")
      (boundsExceeded label " contains an oversized list")
    visitItems env label items depth
  | .text s, _, _ => do
    ensure (s.length ≤ 500) (boundsExceeded label " contains an oversized string")
    ensure (s.toList.any isControl = false ∧ env.secret s = false) (sensitiveContent label)
  | .null, _, _ => .ok ()
  | .bool _, _, _ => .ok ()
  | .uuid _, _, _ => .ok ()

/-- The entries of a list. -/
def visitItems (env : Env) (label : String) : List Document → ℕ → Except Error Unit
  | [], _ => .ok ()
  | item :: items, depth => do
    visit env label item (depth + 1) false
    visitItems env label items depth

/-- The entries of a dictionary. -/
def visitFields (env : Env) (label : String) : List (String × Document) → ℕ → Except Error Unit
  | [], _ => .ok ()
  | (key, item) :: fields, depth => do
    ensure (key.length ≤ 80) (boundsExceeded label " contains an oversized key")
    ensure (prohibitedKey key = false) (sensitiveContent label)
    visit env label item (depth + 1) false
    visitFields env label fields depth

end

/-- The bytes of a character in a JSON string. -/
def charSize (c : Char) : ℕ :=
  if c = '"' ∨ c = '\\' then 2
  else if c.toNat = 8 ∨ c.toNat = 9 ∨ c.toNat = 10 ∨ c.toNat = 12 ∨ c.toNat = 13 then 2
  else if c.toNat < 0x20 then 6
  else c.utf8Size

def textSize (s : String) : ℕ := (s.toList.map charSize).foldl (· + ·) 2

mutual

/-- The bytes of `_canonical_json(value)`; the order of its keys makes no difference. -/
def jsonSize : Document → ℕ
  | .null => 4
  | .bool b => if b then 4 else 5
  | .uuid _ => 38
  | .text s => textSize s
  | .list items => 2 + (items.length - 1) + itemsSize items
  | .dict fields => 2 + (fields.length - 1) + fieldsSize fields

def itemsSize : List Document → ℕ
  | [] => 0
  | item :: items => jsonSize item + itemsSize items

def fieldsSize : List (String × Document) → ℕ
  | [] => 0
  | (key, item) :: fields => textSize key + 1 + jsonSize item + fieldsSize fields

end

/-- `_bounded_json` with `max_size=16 * 1024` -/
def boundedJson (env : Env) (value : Document) (label : String) : Except Error Unit := do
  visit env label value 1 true
  ensure (jsonSize value ≤ 16 * 1024) (boundsExceeded label " exceeds serialized-size limit")

/-! ## Subjects and contexts -/

/-- `_CAMEL.sub(" ", …)` -/
def splitCamel : List Char → List Char
  | a :: b :: rest =>
    if (a.isLower || a.isDigit) && b.isUpper then a :: ' ' :: splitCamel (b :: rest)
    else a :: splitCamel (b :: rest)
  | chars => chars

/-- `_ALIASES` -/
def aliased (token : String) : String :=
  if token = "no" ∨ token = "num" ∨ token = "nbr" then "number" else token

/-- `_SEPARATORS.sub(" ", …)` behind the replacement of underscores. -/
def separate (env : Env) (c : Char) : Char :=
  if c = '_' then ' ' else if env.isWord c || env.isSpace c then c else ' '

/-- `str.split` -/
def tokens (env : Env) (text : String) : List String :=
  ((text.toList.splitOnP env.isSpace).filter (· ≠ [])).map String.ofList

/-- `normalize_subject` -/
def normalizeSubject (env : Env) (value : String) : Except Error String := do
  ensure (value.toList.any isControl = false)
    (.fail "UNSAFE_TEXT" "Control characters are not permitted")
  let spaced := splitCamel (env.nfkc value).toList
  let folded := env.casefold (String.ofList (spaced.map (separate env)))
  let normalized := " ".intercalate ((tokens env folded).map aliased)
  ensure (normalized ≠ "" ∧ normalized.length ≤ 500)
    (.fail "INVALID_SUBJECT" "Normalized subject must contain 1 to 500 characters")
  return normalized

/-- A text that is missing or empty counts as missing. -/
def given (text : Option String) : Option String := text.filter (· ≠ "")

/-- `normalize_subject(text) if text else None` -/
def normalizeGiven (env : Env) (text : Option String) : Except Error (Option String) :=
  match given text with
  | none => .ok none
  | some text => (normalizeSubject env text).map some

/-- `MemoryContext` -/
structure MemoryContext where
  (schemaFingerprint sourceTableOrEntityContext : Option String)
  neighboringFieldSignatures : List String
  deriving DecidableEq

/-- `_context_payload`, which `context_signature` digests. -/
structure ContextSignature where
  (sourceSystemFamily schemaFingerprint canonicalDomain sourceTableOrEntityContext : Option String)
  neighboringFieldSignatures : List String
  governedIndustryCode : Option String
  deriving DecidableEq

/-- `context_signature` -/
def contextSignature (env : Env) (sourceSystemFamily canonicalDomain : Option String)
    (context : MemoryContext) (governedIndustry : Option String) :
    Except Error ContextSignature := do
  let family ← normalizeGiven env sourceSystemFamily
  let domain ← normalizeGiven env canonicalDomain
  let table ← normalizeGiven env context.sourceTableOrEntityContext
  let neighbors ← context.neighboringFieldSignatures.mapM (normalizeSubject env)
  return {
    sourceSystemFamily := family
    schemaFingerprint := (given context.schemaFingerprint).map env.casefold
    canonicalDomain := domain
    sourceTableOrEntityContext := table
    neighboringFieldSignatures := neighbors.insertionSort (· ≤ ·)
    governedIndustryCode := governedIndustry }

/-- What `memory_fingerprint` digests. -/
structure MemoryFingerprint where
  organizationId : UUID
  category : Category
  subjectKind : SubjectKind
  normalizedSubject : String
  (sourceSystemFamily canonicalDomain : Option String)
  contextSignature : ContextSignature
  deriving DecidableEq

/-- `memory_fingerprint` -/
def memoryFingerprint (env : Env) (organizationId : UUID) (category : Category)
    (subjectKind : SubjectKind) (normalizedSubject : String)
    (sourceSystemFamily canonicalDomain : Option String) (signature : ContextSignature) :
    Except Error MemoryFingerprint := do
  let family ← normalizeGiven env sourceSystemFamily
  let domain ← normalizeGiven env canonicalDomain
  return {
    organizationId := organizationId
    category := category
    subjectKind := subjectKind
    normalizedSubject := normalizedSubject
    sourceSystemFamily := family
    canonicalDomain := domain
    contextSignature := signature }

end Intel4Ops.OperationalMemory

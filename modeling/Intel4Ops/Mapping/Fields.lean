import Intel4Ops.Mapping.Model

/-!
# Fields of a record

`_transform`, `_validate_field` and the loop over the field mappings in `_map_record`. A field
either gives a value, or stops the record: with a governed exception, or with an exception that no
handler of the loop catches.
-/

namespace Intel4Ops.Mapping

open Lib

/-! ## Transformations -/

/-- `params[key]`. -/
def requiredParameter (parameters : List (String × Json)) (key : String) : Raises Json :=
  orFail (Json.field parameters key) .keyError

/-- `" ".join(value.strip().casefold().split())`. -/
def normalizeText (env : Env) (text : String) : String :=
  " ".intercalate (env.split (env.casefold (env.strip text)))

/-- `_as_bool`. -/
def asBool (env : Env) : Value → Raises Value
  | .json (.bool b) => .ok (.json (.bool b))
  | value =>
    let normalized := env.casefold (env.strip (env.str value))
    if normalized ∈ ["true", "1", "yes", "y"] then .ok (.json (.bool true))
    else if normalized ∈ ["false", "0", "no", "n"] then .ok (.json (.bool false))
    else .error .valueError

/-- The casts of `TYPE_CAST`. -/
def castTo (env : Env) (target : String) (value : Value) : Raises Value :=
  if target = "string" then .ok (.json (.str (env.str value)))
  else if target = "integer" then env.castInteger value
  else if target = "decimal" then env.castDecimal value
  else if target = "boolean" then asBool env value
  else .error .valueError

def ValueCrosswalkEntry.Applies (e : ValueCrosswalkEntry) (crosswalkId organizationId : UUID)
    (normalized : String) (now : Instant) : Prop :=
  e.crosswalkId = crosswalkId ∧ e.normalizedSourceValue = normalized ∧ e.status = .approved ∧
    (∀ owner ∈ e.ownerOrganizationId, owner = organizationId) ∧
    (∀ t ∈ e.effectiveFrom, t ≤ now) ∧ ∀ t ∈ e.effectiveTo, now < t

instance (e : ValueCrosswalkEntry) (crosswalkId organizationId : UUID) (normalized : String)
    (now : Instant) : Decidable (e.Applies crosswalkId organizationId normalized now) :=
  inferInstanceAs (Decidable (_ ∧ _ ∧ _ ∧ _ ∧ _ ∧ _))

/-- `ValueCrosswalkService.resolve`. -/
def resolveCrosswalk (env : Env) (db : Db) (organizationId crosswalkId : UUID) (value : Value) :
    Option ValueCrosswalkEntry :=
  db.crosswalkEntries.find? fun e =>
    e.Applies crosswalkId organizationId (normalizeText env (env.str value)) env.now

/-- `entry.mapping_confidence_score or Decimal("1")`. -/
def ValueCrosswalkEntry.confidence (e : ValueCrosswalkEntry) : ℚ :=
  match e.mappingConfidenceScore with
  | none => 1
  | some score => if score = 0 then 1 else score

/-- `_transform`. -/
def transform (env : Env) (db : Db) (organizationId : UUID) (value : Value)
    (t : MappingTransformation) (recordValues : List (String × Json)) : Raises (Value × ℚ) :=
  match t.transformationType with
  | .trimNormalize =>
    .ok (.json (.str (" ".intercalate (env.split (env.strip (env.str value))))), 1)
  | .typeCast => do
    let target := env.str (.json ((Json.field t.parameters "target_type").getD .null))
    return (← castTo env target value, 1)
  | .dateParse => do
    return (.datetime (← env.fromisoformat ((env.str value).replace "Z" "+00:00")), 1)
  | .timezoneNormalize => do
    let zone ← requiredParameter t.parameters "source_timezone"
    return (.datetime (← env.normalizeTimezone value (env.str (.json zone))), 1)
  | .unitConvert => do
    let factor ← requiredParameter t.parameters "factor"
    let factor ← env.decimal (env.str (.json factor))
    let value ← env.decimal (env.str value)
    return (.decimal (← env.multiply value factor), 1)
  | .currencyNormalize => do
    let code := env.upper (env.strip (env.str value))
    ensure (code.length = 3 ∧ env.isAlpha code = true) .valueError
    return (.json (.str code), 1)
  | .crosswalkLookup => do
    let crosswalk ← requiredParameter t.parameters "crosswalk_id"
    let crosswalkId ← env.uuid (env.str (.json crosswalk))
    let entry ← orFail (resolveCrosswalk env db organizationId crosswalkId value) .valueError
    return (.json (.str entry.canonicalTargetValue), entry.confidence)
  | .derive => do
    let template ← requiredParameter t.parameters "format"
    let context := Output.assign (recordValues.map fun field => (field.1, .json field.2)) "value"
      value
    return (.json (.str (← env.format (env.str (.json template)) context)), 1)
  | .constant => .ok (.json ((Json.field t.parameters "value").getD .null), 1)
  | .customFunction => .error .valueError

/-! ## Validation -/

/-- A bound of the numeric range: values that cannot be compared fail the validation. -/
def checkBound (rule : List (String × Json)) (key : String) (violates : Json → Raises Bool) :
    Raises Unit :=
  match Json.field rule key with
  | none => .ok ()
  | some bound =>
    match violates bound with
    | .ok violated => ensure (violated = false) .fieldValidation
    | .error .arithmetic | .error .typeError | .error .valueError => .error .fieldValidation
    | .error e => .error e

/-- A bound on the length, which has to be an integer. -/
def checkLength (env : Env) (rule : List (String × Json)) (key : String) (violates : ℤ → Bool) :
    Raises Unit :=
  match Json.field rule key with
  | none => .ok ()
  | some bound => do
    let bound ← env.integer (env.str (.json bound))
    ensure (violates bound = false) .fieldValidation

/-- The pattern, which has to match the whole text. -/
def checkPattern (env : Env) (rule : List (String × Json)) (text : String) : Raises Unit :=
  match Json.field rule "pattern" with
  | none => .ok ()
  | some pattern => do
    ensure ((← env.fullmatch (env.str (.json pattern)) text) = true) .fieldValidation

/-- `_validate_field`. -/
def validateField (env : Env) (field : CanonicalFieldDefinition) (value : Value) : Raises Unit :=
  if value.isNone then .ok ()
  else do
    let text := env.str value
    let rule := field.validationRule
    ensure (∀ allowed ∈ field.allowedValues, allowed.any (env.equal value) = true) .fieldValidation
    checkBound rule "minimum" fun bound => env.below text (env.str (.json bound))
    checkBound rule "maximum" fun bound => env.below (env.str (.json bound)) text
    checkLength env rule "min_length" fun bound => text.length < bound
    checkLength env rule "max_length" fun bound => bound < text.length
    checkPattern env rule text

/-! ## The loop over the field mappings -/

/-- What stops a record: a governed exception with the fields it names, or an exception that escapes
the loop. -/
inductive Stop
  | exception (type : MappingExceptionType) (fields : List String)
  | raised (e : Raised)

/-- The loop's variables; `bound` is the loop variable of the transformations, as the last round
left it. -/
structure FieldState where
  output : Output
  confidenceScores : List ℚ
  missing : List String
  bound : Option MappingTransformation

/-- The handlers of the loop. The second one reads the loop variable of the transformations. -/
def handle (fieldCode : String) (bound : Option MappingTransformation) : Raised → Stop
  | .fieldValidation => .exception .validationFailure [fieldCode]
  | .valueError | .typeError | .keyError =>
    match bound with
    | none => .raised .unboundLocal
    | some t =>
      if t.transformationType = .crosswalkLookup then .exception .crosswalkMiss [fieldCode]
      else .exception .transformationFailure [fieldCode]
  | e => .raised e

/-- The transformations of one field in turn; a failure names the one that raised it. -/
def runTransformations (env : Env) (db : Db) (organizationId : UUID)
    (recordValues : List (String × Json)) :
    Value → List MappingTransformation → Except (Raised × MappingTransformation) (Value × List ℚ)
  | value, [] => .ok (value, [])
  | value, t :: ts =>
    match transform env db organizationId value t recordValues with
    | .error e => .error (e, t)
    | .ok (value, score) =>
      (runTransformations env db organizationId recordValues value ts).map fun r =>
        (r.1, score :: r.2)

/-- The input value of a field, with the default for `None`. -/
def sourceValue (mapping : FieldMapping) (values : List (String × Json)) : Value :=
  let value := Value.json ((Json.field values mapping.sourceFieldPath).getD .null)
  if value.isNone then .json mapping.defaultValue else value

/-- One round of the loop. -/
def mapField (env : Env) (db : Db) (organizationId : UUID) (values : List (String × Json))
    (state : FieldState) (mapping : FieldMapping) : Except Stop FieldState :=
  let code := mapping.field.fieldCode
  let value := sourceValue mapping values
  if value.isNone ∧ mapping.isRequiredForPublication then
    .ok { state with missing := state.missing ++ [code] }
  else
    match runTransformations env db organizationId values value mapping.transformations with
    | .error (e, t) => .error (handle code (some t) e)
    | .ok (value, scores) =>
      let bound := mapping.transformations.getLast?.or state.bound
      match validateField env mapping.field value with
      | .error e => .error (handle code bound e)
      | .ok () => .ok {
          output := state.output.assign code value
          confidenceScores := state.confidenceScores ++ scores
          missing := state.missing
          bound }

/-- The loop and the check of required fields behind it: the output with its scores. -/
def mapFields (env : Env) (db : Db) (organizationId : UUID) (version : MappingTemplateVersion)
    (values : List (String × Json)) : Except Stop (Output × List ℚ) := do
  let state ← version.fieldMappings.foldlM (mapField env db organizationId values) ⟨[], [], [], none⟩
  ensure (state.missing = []) (.exception .missingRequiredField state.missing)
  return (state.output, state.confidenceScores)

end Intel4Ops.Mapping

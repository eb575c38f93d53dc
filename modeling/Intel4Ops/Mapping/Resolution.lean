import Intel4Ops.Mapping.Fields

/-!
# Entity resolution and materialization

`EntityResolutionService.resolve` and `_materialize_target`: an output becomes the stored entity
with its content fingerprint, an entity that a deterministic rule matches, or a new row.
-/

namespace Intel4Ops.Mapping

open Lib

/-! ## Resolution -/

/-- `_entity_value`. -/
def entityValue (entity : CanonicalEntity) (field : String) : Value :=
  if field = "canonical_entity_key" then
    match entity.canonicalEntityKey with
    | none => .json .null
    | some key => .json (.str key)
  else entity.attributes.get field

/-- `_deterministic_match`. -/
def deterministicMatch (env : Env) (method : EntityMatchMethod) (fields : List String)
    (attributes : Output) (entity : CanonicalEntity) : Bool :=
  !fields.isEmpty &&
    (fields.all fun field =>
      !(attributes.get field).isNone && !(entityValue entity field).isNone) &&
    match method with
    | .exactIdentifier =>
      fields.all fun field => env.str (attributes.get field) = env.str (entityValue entity field)
    | .normalizedIdentifier | .deterministicComposite =>
      fields.all fun field => normalizeText env (env.str (attributes.get field)) =
        normalizeText env (env.str (entityValue entity field))
    | .fuzzyCandidate => false

/-- `_fuzzy_score`. -/
def fuzzyScore (env : Env) (fields : List String) (attributes : Output)
    (entity : CanonicalEntity) : ℚ :=
  let left := "|".intercalate ((fields.filter fun field => attributes.any (·.1 = field)).map
    fun field => normalizeText env (env.str (attributes.get field)))
  let right := "|".intercalate ((fields.filter fun field => !(entityValue entity field).isNone).map
    fun field => normalizeText env (env.str (entityValue entity field)))
  if left = "" ∨ right = "" then 0 else env.ratio left right

structure MatchCandidate where
  rule : EntityMatchRule
  entity : CanonicalEntity
  score : ℚ

/-- The score from which on a fuzzy rule takes an entity for a candidate. -/
def EntityMatchRule.threshold (env : Env) (rule : EntityMatchRule) : String :=
  env.str (.json ((Json.field rule.normalization "candidate_threshold").getD (.str "0.75")))

/-- The candidates of a fuzzy rule: the entities whose score reaches its threshold. -/
def fuzzyCandidates (env : Env) (rule : EntityMatchRule) (attributes : Output) :
    List CanonicalEntity → Raises (List MatchCandidate)
  | [] => .ok []
  | entity :: entities => do
    let score := fuzzyScore env rule.matchFields attributes entity
    let reached ← env.atLeast score (rule.threshold env)
    let rest ← fuzzyCandidates env rule attributes entities
    return if reached then ⟨rule, entity, score⟩ :: rest else rest

/-- What resolution finds: a deterministic match, which may be in conflict, or fuzzy candidates. -/
inductive Resolution
  | deterministic (entity : CanonicalEntity) (conflict : Bool)
  | candidates (candidates : List MatchCandidate)

def maxCandidates : ℕ := 20

/-- The rules in turn: the first deterministic rule that matches decides, and until then the fuzzy
rules collect candidates. -/
def resolveRules (env : Env) (entities : List CanonicalEntity) (attributes : Output) :
    List EntityMatchRule → List MatchCandidate → Raises Resolution
  | [], found =>
    .ok (.candidates ((found.insertionSort fun a b => b.score ≤ a.score).take maxCandidates))
  | rule :: rules, found =>
    if rule.matchMethod = .fuzzyCandidate then do
      let more ← fuzzyCandidates env rule attributes entities
      resolveRules env entities attributes rules (found ++ more)
    else
      match entities.filter (deterministicMatch env rule.matchMethod rule.matchFields attributes) with
      | [] => resolveRules env entities attributes rules found
      | entity :: others =>
        .ok (.deterministic entity (others ≠ [] ∨
          env.stableJson entity.attributes ≠ env.stableJson attributes))

/-- The rules of an entity type in the order of their codes. -/
def rulesOf (db : Db) (entityTypeId : UUID) : List EntityMatchRule :=
  (db.matchRules.filter fun rule => rule.entityTypeId = entityTypeId).insertionSort
    fun a b => ¬ b.ruleCode < a.ruleCode

def entitiesOf (db : Db) (organizationId entityTypeId : UUID) : List CanonicalEntity :=
  db.entities.filter fun e => e.organizationId = organizationId ∧ e.entityTypeId = entityTypeId

/-- `EntityResolutionService.resolve`. -/
def resolve (env : Env) (db : Db) (organizationId entityTypeId : UUID) (attributes : Output) :
    Raises Resolution :=
  resolveRules env (entitiesOf db organizationId entityTypeId) attributes
    (rulesOf db entityTypeId) []

/-! ## Storing a target -/

/-- The content fingerprint of an output for a target type. -/
def fingerprint (env : Env) (version : MappingTemplateVersion) (output : Output) : String :=
  env.digest version.targetKind version.targetTypeId (env.stableJson output)

def optionalText (env : Env) (value : Value) : Option String :=
  if value.isNone then none else some (env.str value)

def newEntity (env : Env) (organizationId id : UUID) (version : MappingTemplateVersion)
    (output : Output) : CanonicalEntity where
  id
  organizationId
  entityTypeId := version.targetTypeId
  canonicalEntityKey := optionalText env (output.get "canonical_entity_key")
  attributes := output
  survivorshipSourceLinkId := none
  contentFingerprint := fingerprint env version output

/-- Two entities that the unique constraints keep apart. -/
def CanonicalEntity.Clashes (e e' : CanonicalEntity) : Prop :=
  e.organizationId = e'.organizationId ∧
    (e.contentFingerprint = e'.contentFingerprint ∨
      e.entityTypeId = e'.entityTypeId ∧ e.canonicalEntityKey.isSome ∧
        e.canonicalEntityKey = e'.canonicalEntityKey)

instance (e e' : CanonicalEntity) : Decidable (e.Clashes e') :=
  inferInstanceAs (Decidable (_ ∧ (_ ∨ _ ∧ _ ∧ _)))

/-- The store takes an entity: its attributes are JSON, its key fits, and no stored one clashes. -/
def addEntity (db : Db) (entity : CanonicalEntity) : Raises Db := do
  ensure (entity.attributes.isJson = true) .notSerializable
  ensure (∀ key ∈ entity.canonicalEntityKey, key.length ≤ 500) .dataError
  let entities ← orFail (Table.insert CanonicalEntity.Clashes entity db.entities) .integrity
  return { db with entities, nextId := db.nextId + 1 }

/-- `output[key]`. -/
def requiredValue (output : Output) (key : String) : Raises Value :=
  orFail ((output.find? (·.1 = key)).map (·.2)) .keyError

/-- `_as_datetime`. -/
def asDatetime (env : Env) : Value → Raises String
  | .datetime text => .ok text
  | value => env.fromisoformat ((env.str value).replace "Z" "+00:00")

/-- `_optional_datetime`. -/
def optionalDatetime (env : Env) (value : Value) : Raises (Option String) :=
  if value.isNone then .ok none else (asDatetime env value).map some

/-- The measurement of a metric. -/
def measurementOf (env : Env) (output : Output) : Raises (String × String × Option String) := do
  let measured ← env.decimal (env.str (← requiredValue output "measured_value"))
  let unit := env.str (← requiredValue output "unit")
  return (measured, unit, (optionalText env (output.get "currency")).map env.upper)

/-- The new event or metric of an output. -/
def newOccurrence (env : Env) (organizationId id : UUID) (version : MappingTemplateVersion)
    (output : Output) : Raises CanonicalOccurrence := do
  let entityId ← env.uuid (env.str (← requiredValue output "canonical_entity_id"))
  let occurrenceStart ← asDatetime env (← requiredValue output "occurrence_start")
  let measurement ←
    if version.targetKind = .metric then (measurementOf env output).map some else .ok none
  let occurrenceEnd ← optionalDatetime env (output.get "occurrence_end")
  return {
    id
    organizationId
    canonicalEntityId := entityId
    typeId := version.targetTypeId
    occurrenceStart
    occurrenceEnd
    occurrencePrecision :=
      if output.any (·.1 = "occurrence_precision") then
        env.str (output.get "occurrence_precision")
      else "instant"
    measurement
    actorReference :=
      if version.targetKind = .event then optionalText env (output.get "actor_reference") else none
    attributes := output
    contentFingerprint := fingerprint env version output }

def occurrencePrecisions : List String := ["instant", "second", "minute", "hour", "day", "period"]

/-- What the columns of an event or a metric take. -/
def CanonicalOccurrence.Fits (env : Env) (o : CanonicalOccurrence) : Prop :=
  o.occurrencePrecision ∈ occurrencePrecisions ∧
    (∀ stop ∈ o.occurrenceEnd, env.notBefore o.occurrenceStart stop = true) ∧
    (∀ actor ∈ o.actorReference, actor.length ≤ 255) ∧
    ∀ m ∈ o.measurement, env.numericFits m.1 = true ∧ m.2.1.length ≤ 40 ∧
      ∀ currency ∈ m.2.2, currency.length = 3

instance (env : Env) (o : CanonicalOccurrence) : Decidable (o.Fits env) :=
  inferInstanceAs (Decidable (_ ∧ _ ∧ _ ∧ _))

/-- Two events, or two metrics, that the unique constraint keeps apart. -/
def CanonicalOccurrence.Clashes (o o' : CanonicalOccurrence) : Prop :=
  o.organizationId = o'.organizationId ∧ o.contentFingerprint = o'.contentFingerprint

instance (o o' : CanonicalOccurrence) : Decidable (o.Clashes o') :=
  inferInstanceAs (Decidable (_ ∧ _))

/-- The events or metrics with a new one: its attributes are JSON, its columns fit, its entity is
stored, and no stored row clashes. -/
def addOccurrence (env : Env) (db : Db) (rows : List CanonicalOccurrence)
    (o : CanonicalOccurrence) : Raises (List CanonicalOccurrence) := do
  ensure (o.attributes.isJson = true) .notSerializable
  ensure (o.Fits env) .dataError
  ensure (∃ e ∈ db.entities, e.id = o.canonicalEntityId ∧ e.organizationId = o.organizationId)
    .integrity
  orFail (Table.insert CanonicalOccurrence.Clashes o rows) .integrity

/-- The target of an output, with the status of the record and the match candidates. -/
structure Materialized where
  db : Db
  targetId : UUID
  status : MappingRecordStatus
  candidates : List MatchCandidate

def storedContent (env : Env) (db : Db) (organizationId : UUID) (version : MappingTemplateVersion)
    (output : Output) : Option CanonicalEntity :=
  db.entities.find? fun e => e.organizationId = organizationId ∧
    e.contentFingerprint = fingerprint env version output

/-- `_materialize_target` for an entity. -/
def materializeEntity (env : Env) (db : Db) (organizationId : UUID)
    (version : MappingTemplateVersion) (output : Output) : Raises Materialized :=
  match storedContent env db organizationId version output with
  | some existing => .ok ⟨db, existing.id, .mapped, []⟩
  | none => do
    match ← resolve env db organizationId version.targetTypeId output with
    | .deterministic entity conflict =>
      return ⟨db, entity.id, if conflict then .conflicting else .mapped, []⟩
    | .candidates candidates =>
      let db' ← addEntity db (newEntity env organizationId db.nextId version output)
      return ⟨db', db.nextId, if candidates = [] then .mapped else .ambiguous, candidates⟩

/-- `_materialize_target`. -/
def materializeTarget (env : Env) (db : Db) (organizationId : UUID)
    (version : MappingTemplateVersion) (output : Output) : Raises Materialized :=
  match version.targetKind with
  | .entity => materializeEntity env db organizationId version output
  | .event => do
    let event ← newOccurrence env organizationId db.nextId version output
    let events ← addOccurrence env db db.events event
    return ⟨{ db with events, nextId := db.nextId + 1 }, db.nextId, .mapped, []⟩
  | .metric => do
    let metric ← newOccurrence env organizationId db.nextId version output
    let metrics ← addOccurrence env db db.metrics metric
    return ⟨{ db with metrics, nextId := db.nextId + 1 }, db.nextId, .mapped, []⟩

end Intel4Ops.Mapping

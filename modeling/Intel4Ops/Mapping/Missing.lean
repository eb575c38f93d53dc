import Intel4Ops.Mapping.Fields

/-!
# Values that are missing

An optional field without a value is to stay without one. Every transformation but the three that
supply a value of their own reads its argument as a text or casts it, so it turns `None` into the
text of it, or fails. So the field stays missing exactly if it has no transformation.
-/

namespace Intel4Ops.Mapping

open Lib List Except Prod

/-- A transformation that may give a value where there is none. -/
def TransformationType.supplies : TransformationType → Bool
  | .constant | .derive | .crosswalkLookup => true
  | .typeCast | .dateParse | .timezoneNormalize | .unitConvert | .currencyNormalize
  | .trimNormalize | .customFunction => false

/-- The field is optional, its path leads to nothing or to `null`, and it has no default. -/
structure Absent (mapping : FieldMapping) (values : List (String × Json)) : Prop where
  optional : mapping.isRequiredForPublication = false
  source : ∀ value ∈ Json.field values mapping.sourceFieldPath, (Value.json value).isNone = true
  default : (Value.json mapping.defaultValue).isNone = true

theorem Absent.missing {mapping : FieldMapping} {values : List (String × Json)}
    (h : Absent mapping values) : (sourceValue mapping values).isNone = true := by
  have hsource : (Value.json ((Json.field values mapping.sourceFieldPath).getD .null)).isNone =
      true := by
    cases hfield : Json.field values mapping.sourceFieldPath with
    | none => rfl
    | some value => exact h.source value hfield
  rw [sourceValue, if_pos hsource]
  exact h.default

/-- The round of the field goes through, and leaves `None` or nothing in the output. -/
def KeepsMissing (env : Env) (db : Db) (org : UUID) (values : List (String × Json))
    (state : FieldState) (mapping : FieldMapping) : Prop :=
  ∃ state', mapField env db org values state mapping = .ok state' ∧
    state'.missing = state.missing ∧ (state'.output.get mapping.field.fieldCode).isNone = true

/-- The loop over the fields of a record gets to a field, in a state. -/
def Reaches (env : Env) (db : Db) (org : UUID) (version : MappingTemplateVersion)
    (values : List (String × Json)) (mapping : FieldMapping) (state : FieldState) : Prop :=
  ∃ before after, version.fieldMappings = before ++ mapping :: after ∧
    before.foldlM (mapField env db org values) ⟨[], [], [], none⟩ = .ok state

/-- Missing values stay missing in the record: so does each field that no transformation supplies
with a value. -/
def MissingStaysMissing (env : Env) (db : Db) (org : UUID) (version : MappingTemplateVersion)
    (values : List (String × Json)) : Prop :=
  ∀ mapping state, Reaches env db org version values mapping state → Absent mapping values →
    (∀ t ∈ mapping.transformations, t.transformationType.supplies = false) →
      KeepsMissing env db org values state mapping

/-! ## What the transformations make of a value -/

section

variable {env : Env} (hcasts : ∀ value value', env.castInteger value = .ok value' ∨
    env.castDecimal value = .ok value' → value'.isNone = false)
  {db : Db} {org : UUID} {values : List (String × Json)}

include hcasts

theorem castTo_isNone {target : String} {value value' : Value}
    (h : castTo env target value = .ok value') : value'.isNone = false := by
  unfold castTo at h
  split at h
  · obtain rfl := ok.inj h
    rfl
  · split at h
    · exact hcasts _ _ (.inl h)
    · split at h
      · exact hcasts _ _ (.inr h)
      · split at h
        · unfold asBool at h
          split at h
          · obtain rfl := ok.inj h
            rfl
          · dsimp only at h
            split at h
            · obtain rfl := ok.inj h
              rfl
            · split at h
              · obtain rfl := ok.inj h
                rfl
              · cases h
        · cases h

theorem transform_isNone {value value' : Value} {score : ℚ} {t : MappingTransformation}
    (ht : t.transformationType.supplies = false)
    (h : transform env db org value t values = .ok (value', score)) : value'.isNone = false := by
  unfold transform at h
  split at h
  case h_1 =>
    obtain ⟨rfl, -⟩ := mk.inj (ok.inj h)
    rfl
  case h_2 =>
    obtain ⟨cast, hcast, h⟩ := bind_eq_ok.1 h
    obtain ⟨rfl, -⟩ := mk.inj (pure_eq_ok.1 h)
    exact castTo_isNone hcasts hcast
  case h_3 =>
    obtain ⟨parsed, -, h⟩ := bind_eq_ok.1 h
    obtain ⟨rfl, -⟩ := mk.inj (pure_eq_ok.1 h)
    rfl
  case h_4 =>
    obtain ⟨zone, -, h⟩ := bind_eq_ok.1 h
    obtain ⟨localized, -, h⟩ := bind_eq_ok.1 h
    obtain ⟨rfl, -⟩ := mk.inj (pure_eq_ok.1 h)
    rfl
  case h_5 =>
    iterate 4 obtain ⟨_, -, h⟩ := bind_eq_ok.1 h
    obtain ⟨rfl, -⟩ := mk.inj (pure_eq_ok.1 h)
    rfl
  case h_6 =>
    obtain ⟨_, -, h⟩ := bind_eq_ok.1 h
    obtain ⟨rfl, -⟩ := mk.inj (pure_eq_ok.1 h)
    rfl
  case h_7 htype | h_8 htype | h_9 htype => cases htype ▸ ht
  case h_10 => cases h

theorem runTransformations_isNone {value value' : Value} {scores : List ℚ}
    {ts : List MappingTransformation} (hne : ts ≠ [])
    (hts : ∀ t ∈ ts, t.transformationType.supplies = false)
    (h : runTransformations env db org values value ts = .ok (value', scores)) :
    value'.isNone = false := by
  induction ts generalizing value scores with
  | nil => exact absurd rfl hne
  | cons t ts ih =>
    rw [runTransformations] at h
    split at h
    case h_1 => cases h
    case h_2 next score hstep =>
      obtain ⟨r, hrest, hr⟩ := map_eq_ok.1 h
      obtain ⟨rfl, -⟩ := mk.inj hr
      by_cases hts' : ts = []
      · subst hts'
        obtain rfl := ok.inj hrest
        exact transform_isNone hcasts (hts t mem_cons_self) hstep
      · exact ih hts' (fun t' ht' => hts t' (mem_cons_of_mem _ ht')) hrest

end

/-! ## The round of an absent field -/

theorem find?_update_self {output : Output} {code : String} {value : Value}
    (h : ∃ field ∈ output, field.1 = code) :
    (Table.update (·.1 = code) (fun _ => (code, value)) output).find? (·.1 = code) =
      some (code, value) := by
  induction output with
  | nil =>
    obtain ⟨field, hfield, -⟩ := h
    cases hfield
  | cons first output ih =>
    rw [Table.update, map_cons, ← Table.update]
    by_cases hfirst : first.1 = code
    · simp [hfirst]
    · obtain ⟨field, hfield, hcode⟩ := h
      rcases mem_cons.1 hfield with rfl | hfield
      · exact absurd hcode hfirst
      · have hkept : (if decide (first.1 = code) = true then (code, value) else first) = first :=
          if_neg (by simpa using hfirst)
        rw [hkept, List.find?_cons_of_neg (by simpa using hfirst)]
        exact ih ⟨field, hfield, hcode⟩

@[simp] theorem Output.get_assign_self (output : Output) (code : String) (value : Value) :
    (output.assign code value).get code = value := by
  rw [Output.assign]
  split
  case isTrue h =>
    obtain ⟨field, hfield, hcode⟩ := any_eq_true.1 h
    rw [Output.get, find?_update_self ⟨field, hfield, of_decide_eq_true hcode⟩]
    rfl
  case isFalse h =>
    have hnone : output.find? (·.1 = code) = none := by
      rw [List.find?_eq_none]
      intro field hfield hcode
      exact h (any_eq_true.2 ⟨field, hfield, hcode⟩)
    simp [Output.get, List.find?_append, hnone]

section

variable {env : Env} {db : Db} {org : UUID} {version : MappingTemplateVersion}
  {values : List (String × Json)} {state state' : FieldState} {mapping : FieldMapping}

/-- An absent field is not required, so its chain runs on `None`. -/
theorem mapField_eq_ok (h : Absent mapping values) :
    mapField env db org values state mapping = .ok state' ↔
      ∃ value scores, runTransformations env db org values (sourceValue mapping values)
        mapping.transformations = .ok (value, scores) ∧
          validateField env mapping.field value = .ok () ∧
            state' = ⟨state.output.assign mapping.field.fieldCode value,
              state.confidenceScores ++ scores, state.missing,
              mapping.transformations.getLast?.or state.bound⟩ := by
  have hrequired : ¬ ((sourceValue mapping values).isNone = true ∧
      mapping.isRequiredForPublication = true) := by
    rintro ⟨-, hrequired⟩
    rw [h.optional] at hrequired
    cases hrequired
  simp only [mapField, if_neg hrequired]
  cases hrun : runTransformations env db org values (sourceValue mapping values)
      mapping.transformations with
  | error e => simp
  | ok result =>
    obtain ⟨value, scores⟩ := result
    cases hvalid : validateField env mapping.field value with
    | error e => simp [hvalid]
    | ok u =>
      simp only [ok.injEq, mk.injEq, eq_comm]
      simp [hvalid]

theorem keepsMissing_of_nil (h : Absent mapping values) (hnil : mapping.transformations = []) :
    KeepsMissing env db org values state mapping := by
  have hvalid : validateField env mapping.field (sourceValue mapping values) = .ok () := by
    rw [validateField, if_pos h.missing]
  refine ⟨_, (mapField_eq_ok h).2 ⟨sourceValue mapping values, [], ?_, hvalid, rfl⟩, rfl, ?_⟩
  · rw [hnil, runTransformations]
  · rw [Output.get_assign_self]
    exact h.missing

variable (env db org version values) in
/-- Missing values stay missing exactly if the fields that have none are not transformed. -/
theorem missingStaysMissing_iff (hcasts : ∀ value value', env.castInteger value = .ok value' ∨
      env.castDecimal value = .ok value' → value'.isNone = false) :
    MissingStaysMissing env db org version values ↔
      ∀ mapping state, Reaches env db org version values mapping state → Absent mapping values →
        (∀ t ∈ mapping.transformations, t.transformationType.supplies = false) →
          mapping.transformations = [] := by
  constructor
  · intro hkeeps mapping state hreaches habsent hsupplies
    obtain ⟨state', hround, -, hget⟩ := hkeeps mapping state hreaches habsent hsupplies
    obtain ⟨value, scores, hrun, -, rfl⟩ := (mapField_eq_ok habsent).1 hround
    by_contra hne
    rw [Output.get_assign_self] at hget
    rw [runTransformations_isNone hcasts hne hsupplies hrun] at hget
    cases hget
  · intro hnil mapping state hreaches habsent hsupplies
    exact keepsMissing_of_nil habsent (hnil mapping state hreaches habsent hsupplies)

end

/-! ## A name that is trimmed -/

namespace TrimmedName

/-- The optional name of a customer, trimmed. -/
def name : FieldMapping where
  sourceFieldPath := "customer_name"
  field := ⟨"name", none, []⟩
  isRequiredForPublication := false
  defaultValue := .null
  transformations := [⟨.trimNormalize, []⟩]

def version : MappingTemplateVersion where
  id := 1
  ownerOrganizationId := none
  organizationScoped := false
  targetKind := .entity
  targetTypeId := 2
  published := true
  fieldMappings := [name]

def db : Db where
  nextId := 10
  versions := [version]
  crosswalkEntries := []
  matchRules := []
  datasetVersions := []
  sourceSchemas := []
  rawRecords := []
  entities := []
  events := []
  metrics := []
  runs := []
  inputs := []
  results := []
  links := []
  candidates := []
  exceptions := []
  reviews := []

/-- The customer whose name is missing gets the name "None". -/
theorem name_appears : ¬ MissingStaysMissing Env.words db 7 version [] := by
  intro hkeeps
  have habsent : Absent name [] := ⟨rfl, fun _ h => (by cases h), rfl⟩
  obtain ⟨state', hround, -, hget⟩ := hkeeps name ⟨[], [], [], none⟩ ⟨[], [], rfl, rfl⟩ habsent
    (by simp [name, TransformationType.supplies])
  obtain ⟨value, scores, hrun, -, rfl⟩ := (mapField_eq_ok habsent).1 hround
  obtain ⟨rfl, -⟩ := mk.inj (ok.inj hrun)
  rw [Output.get_assign_self] at hget
  cases hget

/-- Without the transformation the name stays missing. -/
theorem untouched_name_missing : MissingStaysMissing Env.words db 7
      { version with fieldMappings := [{ name with transformations := [] }] } [] := by
  refine (missingStaysMissing_iff Env.words db 7 _ [] ?_).2 ?_
  · rintro value value' (h | h)
    · cases h
    · cases h
  · rintro mapping state ⟨before, after, hsplit, -⟩ - -
    have hmem : mapping ∈ [{ name with transformations := [] }] := by
      rw [show [{ name with transformations := [] }] = before ++ mapping :: after from hsplit]
      simp
    rw [mem_singleton.1 hmem]

end TrimmedName

end Intel4Ops.Mapping

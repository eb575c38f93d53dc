import Intel4Ops.Mapping.Review

/-!
# Records that a run takes

A record that cannot be mapped is to become an exception of its own. `Taken` says when that is so:
no failure of its fields escapes the handlers of the loop, and the store takes its output.
`mapRecord_iff_taken` proves that these are exactly the records that `_map_record` takes; any other
record aborts its run.
-/

namespace Intel4Ops.Mapping

open Lib

/-! ## Fields -/

/-- The failures that the second handler of the loop is for. -/
def Raised.IsTransformation (e : Raised) : Prop := e = .valueError ∨ e = .typeError ∨ e = .keyError

/-- No failure of the field escapes. The transformations may fail with what the handlers are for;
the validation may do so only behind some transformation, because the second handler reads the loop
variable of the transformations. -/
def FieldCaught (env : Env) (db : Db) (org : UUID) (values : List (String × Json))
    (bound : Option MappingTransformation) (mapping : FieldMapping) : Prop :=
  let value := sourceValue mapping values
  (value.isNone = true ∧ mapping.isRequiredForPublication = true) ∨
    (∀ e t, runTransformations env db org values value mapping.transformations = .error (e, t) →
      e = .fieldValidation ∨ e.IsTransformation) ∧
    ∀ value' scores, runTransformations env db org values value mapping.transformations =
        .ok (value', scores) →
      ∀ e, validateField env mapping.field value' = .error e →
        e = .fieldValidation ∨
          e.IsTransformation ∧ (mapping.transformations.getLast?.or bound).isSome = true

/-- No failure of the fields escapes, as far as the loop gets. -/
def FieldsCaught (env : Env) (db : Db) (org : UUID) (version : MappingTemplateVersion)
    (values : List (String × Json)) : Prop :=
  ∀ before mapping after state, version.fieldMappings = before ++ mapping :: after →
    before.foldlM (mapField env db org values) ⟨[], [], [], none⟩ = .ok state →
    FieldCaught env db org values state.bound mapping

theorem handle_raised {code : String} {bound : Option MappingTransformation} {e : Raised} :
    (∃ e', handle code bound e = .raised e') ↔
      ¬ (e = .fieldValidation ∨ e.IsTransformation ∧ bound.isSome = true) := by
  cases e <;> cases bound <;> simp [handle, Raised.IsTransformation] <;> split <;> simp

variable {env : Env} {db db' : Db} {org : UUID} {version : MappingTemplateVersion}
  {values : List (String × Json)}

theorem mapField_raised {state : FieldState} {mapping : FieldMapping} :
    (∃ e, mapField env db org values state mapping = .error (.raised e)) ↔
      ¬ FieldCaught env db org values state.bound mapping := by
  unfold mapField FieldCaught
  by_cases hmissing : (sourceValue mapping values).isNone = true ∧
      mapping.isRequiredForPublication = true
  · simp [hmissing]
  · rw [if_neg hmissing, or_iff_right hmissing]
    cases hrun : runTransformations env db org values (sourceValue mapping values)
        mapping.transformations with
    | error failure =>
      obtain ⟨e, t⟩ := failure
      simp only [Except.error.injEq, handle_raised, Option.isSome_some, and_true]
      simp
    | ok result =>
      obtain ⟨value, scores⟩ := result
      cases hvalid : validateField env mapping.field value with
      | error e =>
        simp only [hvalid, Except.error.injEq, handle_raised]
        simp [hvalid]
      | ok u => simp [hvalid]

theorem mapFields_raised : (∃ e, mapFields env db org version values = .error (.raised e)) ↔
      ¬ FieldsCaught env db org version values := by
  have hfold : (∃ e, mapFields env db org version values = .error (.raised e)) ↔
      ∃ e, version.fieldMappings.foldlM (mapField env db org values) ⟨[], [], [], none⟩ =
        .error (.raised e) := by
    refine exists_congr fun e => ?_
    rw [mapFields, bind_eq_error]
    refine or_iff_left ?_
    rintro ⟨state, -, hmissing⟩
    simp only [bind_eq_error, ensure_eq_error, pure_ne_error, reduceCtorEq, and_false,
      exists_false, or_self] at hmissing
  simp only [hfold, foldlM_eq_error, FieldsCaught, not_forall]
  constructor
  · rintro ⟨e, before, mapping, after, state, hsplit, hbefore, hraised⟩
    exact ⟨before, mapping, after, state, hsplit, hbefore, mapField_raised.1 ⟨e, hraised⟩⟩
  · rintro ⟨before, mapping, after, state, hsplit, hbefore, hescapes⟩
    obtain ⟨e, hraised⟩ := mapField_raised.2 hescapes
    exact ⟨e, before, mapping, after, state, hsplit, hbefore, hraised⟩

/-! ## Targets -/

/-- The store takes the business key of an output: it fits, and no entity of the type has it. -/
def KeyTaken (env : Env) (db : Db) (org : UUID) (version : MappingTemplateVersion)
    (output : Output) : Prop :=
  ∀ key ∈ optionalText env (output.get "canonical_entity_key"), key.length ≤ 500 ∧
    ∀ e ∈ entitiesOf db org version.targetTypeId, e.canonicalEntityKey ≠ some key

/-- The store has an entity for the output, or takes a new one. -/
def EntityTaken (env : Env) (db : Db) (org : UUID) (version : MappingTemplateVersion)
    (output : Output) : Prop :=
  (storedContent env db org version output).isSome = true ∨
    ∃ resolution, resolve env db org version.targetTypeId output = .ok resolution ∧
      ∀ candidates, resolution = .candidates candidates → KeyTaken env db org version output

/-- The store takes the event or metric of the output: its attributes are there and can be read, its
columns fit, its entity is stored, and no row has its fingerprint. -/
def OccurrenceTaken (env : Env) (db : Db) (rows : List CanonicalOccurrence) (org : UUID)
    (version : MappingTemplateVersion) (output : Output) : Prop :=
  ∃ o, newOccurrence env org db.nextId version output = .ok o ∧ o.Fits env ∧
    (∃ e ∈ db.entities, e.id = o.canonicalEntityId ∧ e.organizationId = org) ∧
    ∀ o' ∈ rows, o'.organizationId = org → o'.contentFingerprint ≠ fingerprint env version output

/-- The store takes the target of the output. -/
def TargetTaken (env : Env) (db : Db) (org : UUID) (version : MappingTemplateVersion)
    (output : Output) : Prop :=
  match version.targetKind with
  | .entity => EntityTaken env db org version output
  | .event => OccurrenceTaken env db db.events org version output
  | .metric => OccurrenceTaken env db db.metrics org version output

/-- The run takes the record: no failure of its fields escapes, its output is JSON, and the store
takes the target. -/
structure Taken (env : Env) (db : Db) (org : UUID) (version : MappingTemplateVersion)
    (record : MappingInputRecord) : Prop where
  fields : FieldsCaught env db org version record.values
  output : ∀ output scores, mapFields env db org version record.values = .ok (output, scores) →
    output.isJson = true ∧ TargetTaken env db org version output

variable {id : UUID} {output : Output}

theorem newOccurrence_eq {o : CanonicalOccurrence}
    (h : newOccurrence env org id version output = .ok o) :
    o.organizationId = org ∧ o.attributes = output ∧
      o.contentFingerprint = fingerprint env version output := by
  simp only [newOccurrence, bind_eq_ok] at h
  obtain ⟨_, -, _, -, _, -, _, -, h⟩ := h
  split at h
  all_goals
    simp only [bind_eq_ok, pure_eq_ok] at h
    obtain ⟨_, -, _, -, rfl⟩ := h
    exact ⟨rfl, rfl, rfl⟩

section

variable (hjson : output.isJson = true)
include hjson

/-- Where no stored entity has the content, the store takes a new entity exactly when it takes its
business key. -/
theorem addEntity_isOk (hnone : storedContent env db org version output = none) :
    (∃ db', addEntity db (newEntity env org id version output) = .ok db') ↔
      KeyTaken env db org version output := by
  have hprint : ∀ e ∈ db.entities, e.organizationId = org →
      e.contentFingerprint ≠ fingerprint env version output := by
    intro e he horg hprint
    exact List.find?_eq_none.1 hnone e he (decide_eq_true ⟨horg, hprint⟩)
  simp only [addEntity, bind_eq_ok, ensure_eq_ok, orFail_eq_ok, Table.insert_eq_some, pure_eq_ok,
    KeyTaken]
  constructor
  · rintro ⟨db', -, -, -, hlength, rows, ⟨hfree, -⟩, -⟩ key hkey
    refine ⟨hlength key hkey, fun e he hsame => hfree e (List.mem_of_mem_filter he) ?_⟩
    obtain ⟨-, horg, htype⟩ : e ∈ db.entities ∧ e.organizationId = org ∧
        e.entityTypeId = version.targetTypeId := by
      simpa [entitiesOf] using he
    exact ⟨horg, .inr ⟨htype, by rw [hsame]; rfl, hsame.trans hkey.symm⟩⟩
  · intro hkey
    refine ⟨_, (), hjson, (), fun key hmem => (hkey key hmem).1, _, ⟨?_, rfl⟩, rfl⟩
    rintro e he ⟨horg, hsame | ⟨htype, hsome, hsame⟩⟩
    · exact hprint e he horg hsame
    · obtain ⟨key, hmem⟩ := Option.isSome_iff_exists.1 hsome
      refine (hkey key (hsame.symm.trans hmem)).2 e (List.mem_filter.2 ⟨he, ?_⟩) hmem
      exact decide_eq_true ⟨horg, htype⟩

theorem materializeEntity_isOk :
    (∃ target, materializeEntity env db org version output = .ok target) ↔
      EntityTaken env db org version output := by
  unfold materializeEntity EntityTaken
  split
  · rename_i e hstored
    simp [hstored]
  · rename_i hnone
    rw [hnone, or_iff_right (by simp)]
    constructor
    · rintro ⟨target, h⟩
      simp only [bind_eq_ok] at h
      obtain ⟨resolution, hresolve, h⟩ := h
      refine ⟨resolution, hresolve, ?_⟩
      rintro candidates rfl
      simp only [bind_eq_ok] at h
      obtain ⟨db', hadd, -⟩ := h
      exact (addEntity_isOk hjson hnone).1 ⟨db', hadd⟩
    · rintro ⟨resolution, hresolve, hkey⟩
      rw [hresolve]
      cases resolution with
      | deterministic e conflict => exact ⟨_, rfl⟩
      | candidates candidates =>
        obtain ⟨db', hadd⟩ : ∃ db', addEntity db (newEntity env org db.nextId version output) =
            .ok db' := (addEntity_isOk hjson hnone).2 (hkey candidates rfl)
        simp only [ok_bind, hadd]
        exact ⟨_, rfl⟩

theorem addOccurrence_isOk {rows : List CanonicalOccurrence} {o : CanonicalOccurrence}
    (h : newOccurrence env org id version output = .ok o) :
    (∃ rows', addOccurrence env db rows o = .ok rows') ↔
      o.Fits env ∧ (∃ e ∈ db.entities, e.id = o.canonicalEntityId ∧ e.organizationId = org) ∧
        ∀ o' ∈ rows, o'.organizationId = org →
          o'.contentFingerprint ≠ fingerprint env version output := by
  obtain ⟨horg, hattributes, hprint⟩ := newOccurrence_eq h
  simp only [addOccurrence, bind_eq_ok, ensure_eq_ok, orFail_eq_ok, Table.insert_eq_some,
    CanonicalOccurrence.Clashes, hattributes, horg, hprint, not_and]
  constructor
  · rintro ⟨rows', -, -, -, hfits, -, hentity, hfree, -⟩
    exact ⟨hfits, hentity, hfree⟩
  · rintro ⟨hfits, hentity, hfree⟩
    exact ⟨_, (), hjson, (), hfits, (), hentity, hfree, rfl⟩

theorem occurrence_isOk {rows : List CanonicalOccurrence}
    {wrap : List CanonicalOccurrence → Materialized} :
    (∃ target, (do
        let o ← newOccurrence env org db.nextId version output
        let rows' ← addOccurrence env db rows o
        return wrap rows' : Raises Materialized) = .ok target) ↔
      OccurrenceTaken env db rows org version output := by
  simp only [bind_eq_ok, pure_eq_ok, OccurrenceTaken]
  constructor
  · rintro ⟨target, o, ho, rows', hadd, -⟩
    exact ⟨o, ho, (addOccurrence_isOk hjson ho).1 ⟨rows', hadd⟩⟩
  · rintro ⟨o, ho, htaken⟩
    obtain ⟨rows', hadd⟩ := (addOccurrence_isOk hjson ho).2 htaken
    exact ⟨_, o, ho, rows', hadd, rfl⟩

theorem materializeTarget_isOk :
    (∃ target, materializeTarget env db org version output = .ok target) ↔
      TargetTaken env db org version output := by
  unfold materializeTarget TargetTaken
  cases version.targetKind with
  | entity => exact materializeEntity_isOk hjson
  | event | metric => exact occurrence_isOk hjson

end

/-! ## One record -/

section Record

variable {run : MappingRun} {record : MappingInputRecord}

/-- The run has no result of the raw record yet. -/
def Unmapped (db : Db) (run : MappingRun) (version : MappingTemplateVersion) (rawId : UUID) :
    Prop :=
  ∀ r ∈ db.results, r.key ≠ (run.id, rawId, version.targetKind)

theorem addResult_isOk {result : MappingRecordResult} (hjson : result.resultJson.isJson = true)
    (hfree : ∀ r ∈ db.results, ¬ r.Clashes result) :
    addResult db result =
      .ok { db with results := db.results ++ [result], nextId := db.nextId + 1 } := by
  rw [addResult, ensure_of hjson, ok_bind, Table.insert_eq_some.2 ⟨hfree, rfl⟩, orFail_some]
  rfl

theorem addLink_isOk {link : SourceCanonicalLink} (hfree : ∀ l ∈ db.links, ¬ l.Clashes link) :
    addLink db link = .ok { db with links := db.links ++ [link], nextId := db.nextId + 1 } := by
  simp only [addLink, Table.insert_eq_some.2 ⟨hfree, rfl⟩, orFail_some]
  rfl

theorem exceptionResult_isOk {rawId : UUID} (hunmapped : Unmapped db run version rawId)
    (type : MappingExceptionType) (fields : List String) :
    ∃ p, exceptionResult db run version rawId type fields = .ok p := by
  rw [exceptionResult, addResult_isOk rfl]
  · exact ⟨_, rfl⟩
  · intro r hr hclash
    exact hunmapped r hr (clashes_iff.1 hclash)

theorem recordTarget_isOk (hsound : Sound db) {rawId : UUID}
    (hunmapped : Unmapped db run version rawId) {output : Output} {confidence : ℚ}
    {target : Materialized} (hsame : SameRecords db target.db) :
    (∃ p, recordTarget run version rawId output confidence target = .ok p) ↔
      output.isJson = true := by
  constructor
  · rintro ⟨p, h⟩
    exact (recordTarget_eq h).1
  · intro hjson
    have hfree : ∀ r ∈ target.db.results, ¬ r.Clashes
        (targetResult target.db run version rawId output confidence target) := by
      rw [hsame.results]
      intro r hr hclash
      exact hunmapped r hr (clashes_iff.1 hclash)
    -- A link with the same key would have a result with the same key.
    have hlinks : ∀ l ∈ target.db.links, ¬ l.Clashes
        (recordedLink run version rawId output confidence target) := by
      rw [hsame.links]
      rintro l hl ⟨-, hraw, hkind, -, hrun⟩
      obtain ⟨r, hr, hof⟩ := hsound.linkResult l hl
      refine hunmapped r hr ?_
      rw [hof.key_eq, SourceCanonicalLink.key, hraw, hkind, hrun]
      rfl
    exact ⟨_, bind_eq_ok.2 ⟨_, addResult_isOk hjson hfree,
      bind_eq_ok.2 ⟨_, addLink_isOk hlinks, rfl⟩⟩⟩

theorem mapRecord_iff_taken (hsound : Sound db)
    (hraw : ⟨record.rawRecordReferenceId, run.organizationId, run.datasetVersionId⟩ ∈ db.rawRecords)
    (hunmapped : Unmapped db run version record.rawRecordReferenceId) :
    (∃ p, mapRecord env db run version record = .ok p) ↔
      Taken env db run.organizationId version record := by
  constructor
  · rintro ⟨p, h⟩
    rcases mapRecord_cases h with ⟨-, hcases⟩
    have hfields : FieldsCaught env db run.organizationId version record.values := by
      by_contra hescapes
      obtain ⟨e, hraised⟩ := mapFields_raised.2 hescapes
      rcases hcases with ⟨type, fields, hstop, -⟩ | ⟨output, scores, target, hok, -⟩
      · rw [hraised] at hstop
        cases hstop
      · rw [hraised] at hok
        cases hok
    refine ⟨hfields, fun output scores houtput => ?_⟩
    rcases hcases with ⟨type, fields, hstop, -⟩ | ⟨output', scores', target, hok, htarget, hrecord⟩
    · rw [houtput] at hstop
      cases hstop
    · obtain ⟨rfl, rfl⟩ : output = output' ∧ scores = scores' :=
        Prod.mk.inj (Except.ok.inj (houtput.symm.trans hok))
      have hjson := (recordTarget_eq hrecord).1
      exact ⟨hjson, (materializeTarget_isOk hjson).1 ⟨target, htarget⟩⟩
  · rintro ⟨hfields, houtput⟩
    rw [mapRecord, ensure_of hraw, ok_bind]
    split
    · exact exceptionResult_isOk hunmapped _ _
    · rename_i e hraised
      exact absurd hfields (mapFields_raised.1 ⟨e, hraised⟩)
    · rename_i output scores hok
      obtain ⟨hjson, htaken⟩ := houtput output scores hok
      obtain ⟨target, htarget⟩ := (materializeTarget_isOk hjson).2 htaken
      obtain ⟨hsame, -, -⟩ := materializeTarget_records htarget
      rw [mapOutput, htarget, ok_bind]
      exact (recordTarget_isOk hsound hunmapped hsame).2 hjson

end Record

end Intel4Ops.Mapping

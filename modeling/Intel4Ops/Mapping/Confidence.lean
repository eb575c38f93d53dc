import Intel4Ops.Mapping.Crosswalks
import Intel4Ops.Mapping.Steps

/-!
# Confidence of mapped records

A mapped record is as certain as the least certain decision behind it. A score of zero is read as a
missing one, which counts as one, so the confidence of a record stays below that of its crosswalk
entries exactly if none of them has the score zero.
-/

namespace Intel4Ops.Mapping

open Lib List Except Option Prod

def LooksUp (env : Env) (db : Db) (org : UUID) (t : MappingTransformation) (value : Value)
    (entry : ValueCrosswalkEntry) : Prop :=
  t.transformationType = .crosswalkLookup ∧ ∃ crosswalk crosswalkId,
    requiredParameter t.parameters "crosswalk_id" = .ok crosswalk ∧
      env.uuid (env.str (.json crosswalk)) = .ok crosswalkId ∧
        resolveCrosswalk env db org crosswalkId value = some entry

/-- A chain of transformations uses the entry: one of them looks it up for the value that the ones
before it have made. -/
def ChainUses (env : Env) (db : Db) (org : UUID) (values : List (String × Json)) (value : Value)
    (ts : List MappingTransformation) (entry : ValueCrosswalkEntry) : Prop :=
  ∃ before t after value' scores, ts = before ++ t :: after ∧
    runTransformations env db org values value before = .ok (value', scores) ∧
      LooksUp env db org t value' entry

def RecordUses (env : Env) (db : Db) (org : UUID) (version : MappingTemplateVersion)
    (values : List (String × Json)) (entry : ValueCrosswalkEntry) : Prop :=
  ∃ mapping ∈ version.fieldMappings,
    ChainUses env db org values (sourceValue mapping values) mapping.transformations entry

/-- The record is mapped, and its result is stored with a confidence. -/
def MapsWith (env : Env) (db : Db) (run : MappingRun) (version : MappingTemplateVersion)
    (record : MappingInputRecord) (confidence : ℚ) : Prop :=
  ∃ db' run' r, mapRecord env db run version record = .ok (db', run') ∧
    db'.results = db.results ++ [r] ∧ r.mappingConfidenceScore = some confidence

/-! ## The scores of a record -/

section

variable {env : Env} {db : Db} {org : UUID} {values : List (String × Json)}

variable {t : MappingTransformation} {value' : Value} {ts : List MappingTransformation}
  {scores : List ℚ}

theorem transform_score {value : Value} {score : ℚ}
    (h : transform env db org value t values = .ok (value', score)) :
    (∀ entry, LooksUp env db org t value entry → score = entry.confidence) ∧
      (score = 1 ∨ ∃ entry, LooksUp env db org t value entry ∧ score = entry.confidence) := by
  by_cases hlookup : t.transformationType = .crosswalkLookup
  · unfold transform at h
    rw [hlookup] at h
    obtain ⟨crosswalk, hcrosswalk, h⟩ := bind_eq_ok.1 h
    obtain ⟨crosswalkId, hid, h⟩ := bind_eq_ok.1 h
    obtain ⟨entry, hentry, h⟩ := bind_eq_ok.1 h
    obtain ⟨-, rfl⟩ := mk.inj (pure_eq_ok.1 h)
    rw [orFail_eq_ok] at hentry
    refine ⟨?_, .inr ⟨entry, ⟨hlookup, crosswalk, crosswalkId, hcrosswalk, hid, hentry⟩, rfl⟩⟩
    rintro entry' ⟨-, crosswalk', crosswalkId', hcrosswalk', hid', hentry'⟩
    obtain rfl := ok.inj (hcrosswalk.symm.trans hcrosswalk')
    obtain rfl := ok.inj (hid.symm.trans hid')
    rw [some.inj (hentry.symm.trans hentry')]
  · refine ⟨fun entry hentry => absurd hentry.1 hlookup, .inl ?_⟩
    unfold transform at h
    split at h
    case h_7 htype => exact absurd htype hlookup
    case h_1 | h_9 => exact (mk.inj (ok.inj h)).2.symm
    case h_10 => cases h
    all_goals
      simp only [bind_eq_ok, pure_eq_ok, mk.injEq] at h
      tauto

theorem runTransformations_cons {value : Value} {r : Value × List ℚ} :
    runTransformations env db org values value (t :: ts) = .ok r ↔
      ∃ value' score, transform env db org value t values = .ok (value', score) ∧
        ∃ r', runTransformations env db org values value' ts = .ok r' ∧
          r = (r'.1, score :: r'.2) := by
  rw [runTransformations]
  cases htransform : transform env db org value t values with
  | error e => simp
  | ok result =>
    obtain ⟨value', score⟩ := result
    simp only [map_eq_ok, ok.injEq, mk.injEq]
    constructor
    · rintro ⟨r', hr', rfl⟩
      exact ⟨value', score, ⟨rfl, rfl⟩, r', hr', rfl⟩
    · rintro ⟨_, _, ⟨rfl, rfl⟩, r', hr', rfl⟩
      exact ⟨r', hr', rfl⟩

theorem chainUses_cons {value : Value} {score : ℚ} {entry : ValueCrosswalkEntry}
    (h : transform env db org value t values = .ok (value', score)) :
    ChainUses env db org values value (t :: ts) entry ↔
      LooksUp env db org t value entry ∨ ChainUses env db org values value' ts entry := by
  constructor
  · rintro ⟨before, t', after, made, scores, hsplit, hrun, hlookup⟩
    cases before with
    | nil =>
      obtain ⟨rfl, rfl⟩ := List.cons.inj hsplit
      obtain ⟨rfl, -⟩ := mk.inj (ok.inj hrun)
      exact .inl hlookup
    | cons first before =>
      obtain ⟨rfl, rfl⟩ := List.cons.inj hsplit
      obtain ⟨next, first, hfirst, ⟨made', scores'⟩, hrest, hmade⟩ := runTransformations_cons.1 hrun
      obtain ⟨rfl, -⟩ := mk.inj (ok.inj (hfirst.symm.trans h))
      obtain ⟨rfl, -⟩ := mk.inj hmade
      exact .inr ⟨before, t', after, made, scores', rfl, hrest, hlookup⟩
  · rintro (hlookup | ⟨before, t', after, made, scores, rfl, hrun, hlookup⟩)
    · exact ⟨[], t, ts, value, [], rfl, rfl, hlookup⟩
    · refine ⟨t :: before, t', after, made, score :: scores, rfl, ?_, hlookup⟩
      exact runTransformations_cons.2 ⟨value', score, h, _, hrun, rfl⟩

/-- Scores that account for a set of entries: each entry counts, and nothing else does. -/
structure Scores (scores : List ℚ) (Uses : ValueCrosswalkEntry → Prop) : Prop where
  counted : ∀ entry, Uses entry → entry.confidence ∈ scores
  only : ∀ score ∈ scores, score = 1 ∨ ∃ entry, Uses entry ∧ score = entry.confidence

theorem Scores.append {scores' : List ℚ} {Uses Uses' Uses'' : ValueCrosswalkEntry → Prop}
    (h : Scores scores Uses) (h' : Scores scores' Uses')
    (huses : ∀ entry, Uses'' entry ↔ Uses entry ∨ Uses' entry) :
    Scores (scores ++ scores') Uses'' := by
  refine ⟨fun entry hentry => ?_, fun score hscore => ?_⟩
  · rcases (huses entry).1 hentry with hentry | hentry
    · exact mem_append_left _ (h.counted entry hentry)
    · exact mem_append_right _ (h'.counted entry hentry)
  · rcases mem_append.1 hscore with hscore | hscore
    · refine (h.only score hscore).imp_right ?_
      rintro ⟨entry, hentry, rfl⟩
      exact ⟨entry, (huses entry).2 (.inl hentry), rfl⟩
    · refine (h'.only score hscore).imp_right ?_
      rintro ⟨entry, hentry, rfl⟩
      exact ⟨entry, (huses entry).2 (.inr hentry), rfl⟩

theorem scores_chain {value : Value}
    (h : runTransformations env db org values value ts = .ok (value', scores)) :
    Scores scores (ChainUses env db org values value ts) := by
  induction ts generalizing value scores with
  | nil =>
    obtain ⟨-, rfl⟩ := mk.inj (ok.inj h)
    refine ⟨?_, by simp⟩
    rintro entry ⟨before, t, after, -, -, hsplit, -⟩
    cases before <;> cases hsplit
  | cons t ts ih =>
    obtain ⟨next, score, hstep, ⟨made, rest⟩, hrest, heq⟩ := runTransformations_cons.1 h
    obtain ⟨rfl, rfl⟩ := mk.inj heq
    have hone : Scores [score] (LooksUp env db org t value) := by
      obtain ⟨hcounted, honly⟩ := transform_score hstep
      exact ⟨fun entry hentry => mem_singleton.2 (hcounted entry hentry).symm,
        fun x hx => mem_singleton.1 hx ▸ honly⟩
    exact hone.append (ih hrest) fun entry => chainUses_cons hstep

theorem mapField_scores {state state' : FieldState} {mapping : FieldMapping}
    (h : mapField env db org values state mapping = .ok state') (hmissing : state'.missing = []) :
    state.missing = [] ∧ ∃ scores, state'.confidenceScores = state.confidenceScores ++ scores ∧
      Scores scores (ChainUses env db org values (sourceValue mapping values)
        mapping.transformations) := by
  unfold mapField at h
  dsimp only at h
  split at h
  · obtain rfl := ok.inj h
    simp at hmissing
  · split at h
    case h_1 => cases h
    case h_2 value scores hrun =>
      split at h
      case h_1 => cases h
      case h_2 =>
        obtain rfl := ok.inj h
        exact ⟨hmissing, scores, rfl, scores_chain hrun⟩

theorem scores_fields {mappings : List FieldMapping} {state state' : FieldState}
    (h : mappings.foldlM (mapField env db org values) state = .ok state')
    (hmissing : state'.missing = []) :
    state.missing = [] ∧ ∃ scores, state'.confidenceScores = state.confidenceScores ++ scores ∧
      Scores scores fun entry => ∃ mapping ∈ mappings, ChainUses env db org values
        (sourceValue mapping values) mapping.transformations entry := by
  induction mappings generalizing state with
  | nil =>
    obtain rfl := ok.inj h
    exact ⟨hmissing, [], (append_nil _).symm, by simp, by simp⟩
  | cons mapping mappings ih =>
    rw [foldlM_cons, bind_eq_ok] at h
    obtain ⟨next, hfirst, hrest⟩ := h
    obtain ⟨hnext, rest, hscores, hsound⟩ := ih hrest
    obtain ⟨hstate, first, hfirstScores, hfirstSound⟩ := mapField_scores hfirst hnext
    refine ⟨hstate, first ++ rest, ?_, ?_⟩
    · rw [hscores, hfirstScores, append_assoc]
    · exact hfirstSound.append hsound fun entry => exists_mem_cons_iff ..

theorem scores_record {version : MappingTemplateVersion} {output : Output}
    (h : mapFields env db org version values = .ok (output, scores)) :
    Scores scores (RecordUses env db org version values) := by
  simp only [mapFields, bind_eq_ok, ensure_eq_ok, pure_eq_ok, mk.injEq] at h
  obtain ⟨state, hfold, -, hmissing, -, rfl⟩ := h
  obtain ⟨-, rest, hscores, hsound⟩ := scores_fields hfold hmissing
  rw [hscores, nil_append]
  exact hsound

end

/-! ## The least score -/

theorem minimumScore_cons (score : ℚ) (scores : List ℚ) :
    minimumScore (score :: scores) ∈ score :: scores ∧
      ∀ x ∈ score :: scores, minimumScore (score :: scores) ≤ x := by
  have hmin : (score :: scores).min? = some (minimumScore (score :: scores)) := rfl
  exact List.min?_eq_some_iff.1 hmin

theorem minimumScore_le {scores : List ℚ} {score : ℚ} (h : score ∈ scores) :
    minimumScore scores ≤ score := by
  cases scores with
  | nil => cases h
  | cons first scores => exact (minimumScore_cons first scores).2 score h

theorem minimumScore_pos {scores : List ℚ} (h : ∀ score ∈ scores, 0 < score) :
    0 < minimumScore scores := by
  cases scores with
  | nil => exact one_pos
  | cons first scores => exact h _ (minimumScore_cons first scores).1

/-- An entry counts as its score, unless that is zero or missing. -/
theorem confidence_eq {entry : ValueCrosswalkEntry} {score : ℚ}
    (h : entry.mappingConfidenceScore = some score) (hne : score ≠ 0) :
    entry.confidence = score := by
  rw [ValueCrosswalkEntry.confidence, h]
  exact if_neg hne

theorem confidence_pos {entry : ValueCrosswalkEntry}
    (h : ∀ score ∈ entry.mappingConfidenceScore, 0 ≤ score) : 0 < entry.confidence := by
  rw [ValueCrosswalkEntry.confidence]
  cases hscore : entry.mappingConfidenceScore with
  | none => exact one_pos
  | some score =>
    dsimp only
    split
    · exact one_pos
    · exact lt_of_le_of_ne (h score hscore) (Ne.symm ‹_›)

section

variable {env : Env} {db : Db} {run : MappingRun} {version : MappingTemplateVersion}
  {record : MappingInputRecord} {confidence : ℚ}

/-- Only a materialized output has a confidence, the least of its scores. -/
theorem MapsWith.fields (h : MapsWith env db run version record confidence) :
    ∃ output scores, mapFields env db run.organizationId version record.values =
      .ok (output, scores) ∧ confidence = minimumScore scores := by
  obtain ⟨db', run', r, hmap, hresults, hconfidence⟩ := h
  rcases mapRecord_cases hmap with
    ⟨-, ⟨type, fields, -, hexception⟩ | ⟨output, scores, target, hfields, htarget, hrecord⟩⟩
  · simp only [exceptionResult, bind_eq_ok, pure_eq_ok, mk.injEq] at hexception
    obtain ⟨recorded, hadd, rfl, -⟩ := hexception
    obtain ⟨-, -, rfl⟩ := addResult_eq hadd
    obtain rfl := singleton_injective (append_cancel_left hresults)
    cases hconfidence
  · obtain ⟨hsame, hkind, -⟩ := materializeTarget_records htarget
    obtain ⟨xs, hadds⟩ := recordTarget_adds hsame hkind hrecord
    have happend := hadds.results.symm.trans hresults
    obtain rfl := singleton_injective (append_cancel_left happend)
    exact ⟨output, scores, hfields, (some.inj hconfidence).symm⟩

theorem RecordUses.mem {org : UUID} {values : List (String × Json)} {entry : ValueCrosswalkEntry}
    (h : RecordUses env db org version values entry) : entry ∈ db.crosswalkEntries := by
  obtain ⟨mapping, -, before, t, after, value, scores, -, -, -, crosswalk, crosswalkId, -, -,
    hresolve⟩ := h
  exact mem_of_find?_eq_some hresolve

theorem le_entries_iff (hscores : ∀ entry ∈ db.crosswalkEntries,
      ∀ score ∈ entry.mappingConfidenceScore, 0 ≤ score)
    (h : MapsWith env db run version record confidence) :
    (∀ entry, RecordUses env db run.organizationId version record.values entry →
        ∀ score ∈ entry.mappingConfidenceScore, confidence ≤ score) ↔
      ∀ entry, RecordUses env db run.organizationId version record.values entry →
        entry.mappingConfidenceScore ≠ some 0 := by
  obtain ⟨output, scores, hfields, rfl⟩ := h.fields
  obtain ⟨hcounted, honly⟩ := scores_record hfields
  constructor
  · intro hle entry hentry hzero
    have hpos : 0 < minimumScore scores := by
      refine minimumScore_pos fun score hscore => ?_
      rcases honly score hscore with rfl | ⟨entry, hentry, rfl⟩
      · exact one_pos
      · exact confidence_pos (hscores entry hentry.mem)
    exact (hle entry hentry 0 hzero).not_gt hpos
  · intro hne entry hentry score hscore
    have hscore_ne : score ≠ 0 := by
      rintro rfl
      exact hne entry hentry hscore
    rw [← confidence_eq hscore hscore_ne]
    exact minimumScore_le (hcounted entry hentry)

/-- The stored entries as the lookups of a run read them. -/
def Crosswalks.rows (s : Crosswalks) : List ValueCrosswalkEntry :=
  s.entries.map (·.toValueCrosswalkEntry)

/-- Crosswalk answers are unique after approvals that meet no competing entry, and they inflate no
confidence exactly where no entry in use scores zero. -/
theorem crosswalkAnswers_iff {s : Crosswalks} (hs : s.Fresh) (calls : List CrosswalkCall) :
    ((crosswalkService env).AllSteps Uncontested s calls →
        Unambiguous ((crosswalkService env).run s calls)) ∧
      ∀ (db : Db) (run : MappingRun) (version : MappingTemplateVersion)
        (record : MappingInputRecord) (confidence : ℚ),
        db.crosswalkEntries.Perm ((crosswalkService env).run s calls).rows →
          MapsWith env db run version record confidence →
            ((∀ entry, RecordUses env db run.organizationId version record.values entry →
                ∀ score ∈ entry.mappingConfidenceScore, confidence ≤ score) ↔
              ∀ entry, RecordUses env db run.organizationId version record.values entry →
                entry.mappingConfidenceScore ≠ some 0) := by
  refine ⟨unambiguous_run hs, fun db run version record confidence hperm hmaps => ?_⟩
  refine le_entries_iff (fun entry hentry score hscore => ?_) hmaps
  obtain ⟨r, hr, rfl⟩ := mem_map.1 (hperm.mem_iff.1 hentry)
  exact ((kept_run hs calls).score r hr score hscore).1

end

/-! ## Two answers, one of them worthless -/

namespace TwoAnswers

/-- The environment of words, where each text names the crosswalk `1`. -/
def env : Env := { Env.words with uuid := fun _ => .ok 1 }

def crosswalks : Crosswalks where
  nextId := 10
  crosswalks := [⟨1, none, false⟩]
  entries := []

/-- An answer to "active" without any date. -/
def answer (target : String) : ValueCrosswalkEntryCreate where
  sourceValue := "active"
  canonicalTargetValue := target
  mappingConfidenceScore := some 0
  effectiveFrom := none
  effectiveTo := none
  score_range := by
    intro score hscore
    obtain rfl := some.inj hscore
    exact ⟨le_refl _, zero_le_one⟩

/-- Two answers are added and approved. -/
def calls : List CrosswalkCall :=
  [.addEntry 1 (answer "open") none, .addEntry 1 (answer "paying") none, .approve 10 none,
    .approve 11 none]

def status : FieldMapping where
  sourceFieldPath := "status"
  field := ⟨"status", none, []⟩
  isRequiredForPublication := true
  defaultValue := .null
  transformations := [⟨.crosswalkLookup, [("crosswalk_id", .str "1")]⟩]

def version : MappingTemplateVersion where
  id := 2
  ownerOrganizationId := none
  organizationScoped := false
  targetKind := .entity
  targetTypeId := 3
  published := true
  fieldMappings := [status]

def db : Db where
  nextId := 100
  versions := [version]
  crosswalkEntries := ((crosswalkService env).run crosswalks calls).rows
  matchRules := []
  datasetVersions := [⟨6, 9⟩]
  sourceSchemas := []
  rawRecords := [⟨5, 9, 6⟩]
  entities := []
  events := []
  metrics := []
  runs := []
  inputs := []
  results := []
  links := []
  candidates := []
  exceptions := []
  reviews := []

def run : MappingRun where
  id := 8
  organizationId := 9
  datasetVersionId := 6
  templateVersionId := 2
  status := .running
  idempotencyKey := "run"
  requestFingerprint := "print"
  inputCount := 1
  createdAt := 0

def record : MappingInputRecord := ⟨5, [("status", .str "active")]⟩

/-- Both answers apply at once, and the record that uses one of them is certain. -/
theorem answers_differ_and_inflate : ¬ Unambiguous ((crosswalkService env).run crosswalks calls) ∧
      MapsWith env db run version record 1 ∧
        ∃ entry, RecordUses env db run.organizationId version record.values entry ∧
          entry.mappingConfidenceScore = some 0 := by
  refine ⟨fun hunambiguous => ?_, ?_, ?_⟩
  · have htwo : ∃ r ∈ ((crosswalkService env).run crosswalks calls).entries,
        ∃ r' ∈ ((crosswalkService env).run crosswalks calls).entries, r.id ≠ r'.id ∧
          r.Applies 1 0 "active" 0 ∧ r'.Applies 1 0 "active" 0 := by
      decide +kernel
    obtain ⟨r, hr, r', hr', hid, happlies, happlies'⟩ := htwo
    exact hid (congrArg (·.id) (hunambiguous.unique 1 0 "active" 0 r hr r' hr' happlies happlies'))
  · have hmapped : (mapRecord env db run version record).toOption.map
        (fun result => result.1.results.map (·.mappingConfidenceScore)) = some [some 1] := by
      decide +kernel
    cases hresult : mapRecord env db run version record with
    | error e =>
      rw [hresult] at hmapped
      cases hmapped
    | ok result =>
      rw [hresult] at hmapped
      obtain ⟨r, hresults, hscore⟩ := map_eq_singleton_iff.1 (some.inj hmapped)
      exact ⟨result.1, result.2, r, hresult, hresults, hscore⟩
  · have hzero : (resolveCrosswalk env db run.organizationId 1 (.json (.str "active"))).bind
        (·.mappingConfidenceScore) = some 0 := by
      decide +kernel
    obtain ⟨entry, hentry, hscore⟩ := bind_eq_some_iff.1 hzero
    exact ⟨entry, ⟨status, mem_cons_self, [], _, [], _, [], rfl, rfl, rfl, .str "1", 1, rfl,
      rfl, hentry⟩, hscore⟩

/-- One answer that is approved alone is the answer, and a record is as worthless as it is. -/
theorem one_answer :
    Unambiguous ((crosswalkService env).run crosswalks [.addEntry 1 (answer "open") none,
      .approve 10 none]) :=
  (crosswalkAnswers_iff (s := crosswalks) ⟨nodup_singleton _, rfl⟩ _).1 (by decide +kernel)

end TwoAnswers

end Intel4Ops.Mapping

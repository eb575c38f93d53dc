import Intel4Ops.Mapping.Records

/-!
# What a mapped record adds

`Adds` says what one mapped record leaves in the tables: one result, at most one link for it, the
candidates of that link, and at most one exception of the result, all under fresh identifiers.
`mapRecord_adds` proves it of `_map_record`; the results about reviews, ambiguity and accounting
only read `Adds`.
-/

namespace Intel4Ops.Mapping

open Lib List Table Prod

/-- A link and a result of the same raw record in the same run. -/
def SourceCanonicalLink.Of (l : SourceCanonicalLink) (r : MappingRecordResult) : Prop :=
  r.organizationId = l.organizationId ∧ r.mappingRunId = l.mappingRunId ∧
    r.rawRecordReferenceId = l.rawRecordReferenceId ∧
    r.canonicalTargetKind = l.canonicalTargetKind

/-- `id` is drawn between the two tables. -/
def Drawn (db db' : Db) (id : ℕ) : Prop := db.nextId ≤ id ∧ id < db'.nextId

/-- The link of a new result and the candidates of the link. -/
structure LinkAdded (db db' : Db) (r : MappingRecordResult) (l : SourceCanonicalLink)
    (cs : List EntityMatchCandidate) : Prop where
  of : l.Of r
  drawn : Drawn db db' l.id
  candidates : ∀ c ∈ cs, c.sourceCanonicalLinkId = l.id ∧ c.organizationId = l.organizationId ∧
    c.status = .candidate ∧ l.canonicalTargetKind = .entity

/-- One record's rows: result `r`, links `ls`, their candidates `cs`, exceptions `xs`. -/
structure Adds (db db' : Db) (r : MappingRecordResult) (ls : List SourceCanonicalLink)
    (cs : List EntityMatchCandidate) (xs : List MappingException) : Prop where
  results : db'.results = db.results ++ [r]
  links : db'.links = db.links ++ ls
  candidates : db'.candidates = db.candidates ++ cs
  exceptions : db'.exceptions = db.exceptions ++ xs
  resultFree : ∀ r' ∈ db.results, ¬ r'.Clashes r
  resultDrawn : Drawn db db' r.id
  link : ls = [] ∧ cs = [] ∨ ∃ l, ls = [l] ∧ LinkAdded db db' r l cs
  candidateIds : Unique (·.id) cs
  candidateDrawn : ∀ c ∈ cs, Drawn db db' c.id
  exception : xs = [] ∨ ∃ x, xs = [x] ∧ x.mappingRecordResultId = r.id ∧
    x.status = .open ∧ Drawn db db' x.id

/-! ## The single writes -/

variable {db' : Db} {r : MappingRecordResult} {org : UUID} {output : Output} {run' : MappingRun}

theorem addResult_eq {db : Db} (h : addResult db r = .ok db') :
    r.resultJson.isJson = true ∧ (∀ r' ∈ db.results, ¬ r'.Clashes r) ∧
      db' = { db with results := db.results ++ [r], nextId := db.nextId + 1 } := by
  simp only [addResult, bind_eq_ok, ensure_eq_ok, orFail_eq_ok, insert_eq_some, pure_eq_ok] at h
  obtain ⟨-, hjson, rows, ⟨hfree, rfl⟩, rfl⟩ := h
  exact ⟨hjson, hfree, rfl⟩

theorem addLink_eq {db : Db} {l : SourceCanonicalLink} (h : addLink db l = .ok db') :
    (∀ l' ∈ db.links, ¬ l'.Clashes l) ∧
      db' = { db with links := db.links ++ [l], nextId := db.nextId + 1 } := by
  simp only [addLink, bind_eq_ok, orFail_eq_ok, insert_eq_some, pure_eq_ok] at h
  obtain ⟨rows, ⟨hfree, rfl⟩, rfl⟩ := h
  exact ⟨hfree, rfl⟩

variable {linkId rawId : UUID} {cs : List EntityMatchCandidate} {ls : List SourceCanonicalLink}

theorem mem_candidateRows {cs : List MatchCandidate} {id : ℕ} {c : EntityMatchCandidate}
    (h : c ∈ candidateRows org linkId id cs) :
    c.sourceCanonicalLinkId = linkId ∧ c.organizationId = org ∧ c.status = .candidate ∧
      id ≤ c.id ∧ id + cs.length > c.id := by
  induction cs generalizing id with
  | nil => exact absurd h not_mem_nil
  | cons m cs ih =>
    rcases mem_cons.1 h with rfl | h
    · exact ⟨rfl, rfl, rfl, le_refl _, by simp⟩
    · obtain ⟨hlink, horg, hstatus, hlow, hhigh⟩ := ih h
      refine ⟨hlink, horg, hstatus, by omega, ?_⟩
      rw [length_cons]
      omega

theorem candidateRows_unique (org linkId : UUID) (cs : List MatchCandidate) (id : ℕ) :
    Unique (·.id) (candidateRows org linkId id cs) := by
  induction cs generalizing id with
  | nil => exact Unique.nil
  | cons m cs ih =>
    refine nodup_cons.2 ⟨?_, ih (id + 1)⟩
    rintro h
    obtain ⟨c, hc, heq⟩ := mem_map.1 h
    have hlow := (mem_candidateRows hc).2.2.2.1
    have heq : id = c.id := heq.symm
    omega

/-! ## Materialization leaves the records alone -/

/-- The tables of records are the same, and the supply has only grown. -/
structure SameRecords (db db' : Db) : Prop where
  results : db'.results = db.results
  links : db'.links = db.links
  candidates : db'.candidates = db.candidates
  exceptions : db'.exceptions = db.exceptions
  supply : db.nextId ≤ db'.nextId

theorem SameRecords.refl (db : Db) : SameRecords db db := ⟨rfl, rfl, rfl, rfl, le_refl _⟩

theorem addEntity_eq {db : Db} {e : CanonicalEntity} (h : addEntity db e = .ok db') :
    e.attributes.isJson = true ∧ (∀ e' ∈ db.entities, ¬ e'.Clashes e) ∧
      db' = { db with entities := db.entities ++ [e], nextId := db.nextId + 1 } := by
  simp only [addEntity, bind_eq_ok, ensure_eq_ok, orFail_eq_ok, insert_eq_some, pure_eq_ok] at h
  obtain ⟨-, hjson, -, -, rows, ⟨hfree, rfl⟩, rfl⟩ := h
  exact ⟨hjson, hfree, rfl⟩

/-- The three ways to materialize an entity: the stored content, a deterministic match, or a new
entity, which is ambiguous when fuzzy rules found candidates. -/
theorem materializeEntity_cases {env : Env} {db : Db} {version : MappingTemplateVersion}
    {target : Materialized} (h : materializeEntity env db org version output = .ok target) :
    (∃ e, storedContent env db org version output = some e ∧ target = ⟨db, e.id, .mapped, []⟩) ∨
      storedContent env db org version output = none ∧
      ((∃ e conflict, resolve env db org version.targetTypeId output =
            .ok (.deterministic e conflict) ∧
          target = ⟨db, e.id, if conflict then .conflicting else .mapped, []⟩) ∨
        ∃ candidates, resolve env db org version.targetTypeId output =
            .ok (.candidates candidates) ∧
          target = ⟨{ db with
              entities := db.entities ++ [newEntity env org db.nextId version output]
              nextId := db.nextId + 1 },
            db.nextId, if candidates = [] then .mapped else .ambiguous, candidates⟩) := by
  unfold materializeEntity at h
  split at h
  · rename_i existing hstored
    exact .inl ⟨existing, hstored, (Except.ok.inj h).symm⟩
  · rename_i hnone
    refine .inr ⟨hnone, ?_⟩
    simp only [bind_eq_ok] at h
    obtain ⟨resolution, hresolve, h⟩ := h
    cases resolution with
    | deterministic e conflict =>
      exact .inl ⟨e, conflict, hresolve, (Except.ok.inj h).symm⟩
    | candidates candidates =>
      simp only [bind_eq_ok, pure_eq_ok] at h
      obtain ⟨db', hadd, rfl⟩ := h
      obtain ⟨-, -, rfl⟩ := addEntity_eq hadd
      exact .inr ⟨candidates, hresolve, rfl⟩

/-- Materialization touches no record, and gives match candidates for entities only. -/
theorem materializeTarget_records {env : Env} {db : Db} {version : MappingTemplateVersion}
    {target : Materialized} (h : materializeTarget env db org version output = .ok target) :
    SameRecords db target.db ∧ (version.targetKind ≠ .entity → target.candidates = []) ∧
      (target.status = .mapped ∨ target.status = .ambiguous ∨ target.status = .conflicting) := by
  unfold materializeTarget at h
  split at h
  · rename_i hkind
    rcases materializeEntity_cases h with ⟨e, -, rfl⟩ | ⟨-, ⟨e, conflict, -, rfl⟩ | ⟨cs, -, rfl⟩⟩
    · exact ⟨.refl db, fun _ => rfl, .inl rfl⟩
    · refine ⟨.refl db, fun _ => rfl, ?_⟩
      cases conflict with
      | true => exact .inr (.inr rfl)
      | false => exact .inl rfl
    · refine ⟨⟨rfl, rfl, rfl, rfl, Nat.le_succ _⟩, fun hne => absurd hkind hne, ?_⟩
      show (if cs = [] then _ else _) = _ ∨ _
      split <;> simp
  all_goals
    simp only [bind_eq_ok, pure_eq_ok] at h
    obtain ⟨o, -, rows, -, rfl⟩ := h
    exact ⟨⟨rfl, rfl, rfl, rfl, Nat.le_succ _⟩, fun _ => rfl, .inl rfl⟩

/-! ## One record -/

theorem exceptionResult_adds {db : Db} {run : MappingRun} {version : MappingTemplateVersion}
    {type : MappingExceptionType} {fields : List String}
    (h : exceptionResult db run version rawId type fields = .ok (db', run')) :
    run' = run.countException ∧ db'.entities = db.entities ∧
      ∃ r xs, Adds db db' r [] [] xs ∧ r.organizationId = run.organizationId ∧
        r.mappingRunId = run.id ∧ r.rawRecordReferenceId = rawId := by
  simp only [exceptionResult, bind_eq_ok, pure_eq_ok, mk.injEq] at h
  obtain ⟨recorded, hadd, rfl, rfl⟩ := h
  obtain ⟨-, hfree, rfl⟩ := addResult_eq hadd
  refine ⟨rfl, rfl, _, _, {
    results := rfl
    links := (append_nil _).symm
    candidates := (append_nil _).symm
    exceptions := rfl
    resultFree := hfree
    resultDrawn := ⟨le_refl _, ?_⟩
    link := .inl ⟨rfl, rfl⟩
    candidateIds := Unique.nil
    candidateDrawn := fun c hc => absurd hc not_mem_nil
    exception := .inr ⟨_, rfl, rfl, rfl, ?_, ?_⟩ }, rfl, rfl, rfl⟩
  · show db.nextId < db.nextId + 1 + 1
    omega
  · show db.nextId ≤ db.nextId + 1
    omega
  · show db.nextId + 1 < db.nextId + 1 + 1
    omega

/-- The tables behind the link of a materialized output. -/
def listedTarget (run : MappingRun) (version : MappingTemplateVersion) (rawId : UUID)
    (output : Output) (confidence : ℚ) (target : Materialized) : Db :=
  let r := targetResult target.db run version rawId output confidence target
  let recorded := { target.db with
    results := target.db.results ++ [r], nextId := target.db.nextId + 1 }
  let l := targetLink recorded run version rawId confidence target
  addCandidates { recorded with links := recorded.links ++ [l], nextId := recorded.nextId + 1 }
    run.organizationId l.id target.candidates

theorem recordTarget_eq {run : MappingRun} {version : MappingTemplateVersion} {confidence : ℚ}
    {target : Materialized}
    (h : recordTarget run version rawId output confidence target = .ok (db', run')) :
    output.isJson = true ∧
      (∀ r ∈ target.db.results, ¬ r.Clashes
        (targetResult target.db run version rawId output confidence target)) ∧
      (db', run') = settleRecord (listedTarget run version rawId output confidence target) run
        version target.db.nextId (target.db.nextId + 1) target := by
  simp only [recordTarget, bind_eq_ok, pure_eq_ok] at h
  obtain ⟨recorded, hresult, linked, hlink, heq⟩ := h
  obtain ⟨hjson, hfree, rfl⟩ := addResult_eq hresult
  obtain ⟨-, rfl⟩ := addLink_eq hlink
  exact ⟨hjson, hfree, heq.symm⟩

/-- What settling leaves: an exception of the result for a record that needs review, and at most a
surviving link otherwise. -/
theorem settleRecord_cases {db : Db} {run : MappingRun} {version : MappingTemplateVersion}
    {resultId : UUID} {target : Materialized}
    (h : (db', run') = settleRecord db run version resultId linkId target) :
    ((target.status = .ambiguous ∨ target.status = .conflicting) ∧ run' = run.countException ∧
        ∃ type, db' = addException db run.organizationId resultId type []) ∨
      (target.status ≠ .ambiguous ∧ target.status ≠ .conflicting) ∧ run' = run.countMapped ∧
        (db' = db ∨ target.status = .mapped ∧ db' = setSurvivorship db target.targetId linkId) := by
  unfold settleRecord at h
  split at h
  · rename_i hstatus
    exact .inl ⟨.inl hstatus, congrArg snd h, _, congrArg fst h⟩
  · rename_i hstatus
    exact .inl ⟨.inr hstatus, congrArg snd h, _, congrArg fst h⟩
  · rename_i hstatus
    refine .inr ⟨by simp [hstatus], congrArg snd h, ?_⟩
    have hdb := congrArg fst h
    simp only at hdb
    split at hdb
    · exact .inr ⟨hstatus, hdb⟩
    · exact .inl hdb
  · rename_i hambiguous hconflicting _
    exact .inr ⟨⟨hambiguous, hconflicting⟩, congrArg snd h, .inl (congrArg fst h)⟩

theorem Drawn.mono {db db'' : Db} {id : UUID} (h : Drawn db db' id)
    (hle : db'.nextId ≤ db''.nextId) : Drawn db db'' id :=
  ⟨h.1, h.2.trans_le hle⟩

theorem Adds.addException {db : Db} (h : Adds db db' r ls cs []) (org : UUID)
    (type : MappingExceptionType) (fields : List String) :
    Adds db (addException db' org r.id type fields) r ls cs
      [newException db'.nextId org r.id type fields] := by
  have hle : db'.nextId ≤ (Mapping.addException db' org r.id type fields).nextId := Nat.le_succ _
  refine {
    results := h.results
    links := h.links
    candidates := h.candidates
    exceptions := ?_
    resultFree := h.resultFree
    resultDrawn := h.resultDrawn.mono hle
    link := h.link.imp_right fun ⟨l, hls, hl⟩ => ⟨l, hls, hl.of, hl.drawn.mono hle, hl.candidates⟩
    candidateIds := h.candidateIds
    candidateDrawn := fun c hc => (h.candidateDrawn c hc).mono hle
    exception := .inr ⟨_, rfl, rfl, rfl, ?_, ?_⟩ }
  · rw [Mapping.addException, h.exceptions, append_nil]
  · have hlow := h.resultDrawn.1
    have hhigh := h.resultDrawn.2
    show db.nextId ≤ db'.nextId
    omega
  · exact Nat.lt_succ_self _

theorem Adds.setSurvivorship {db : Db} {xs : List MappingException} (h : Adds db db' r ls cs xs)
    (entityId linkId : UUID) : Adds db (setSurvivorship db' entityId linkId) r ls cs xs where
  results := h.results
  links := h.links
  candidates := h.candidates
  exceptions := h.exceptions
  resultFree := h.resultFree
  resultDrawn := h.resultDrawn
  link := h.link.imp_right fun ⟨l, hls, hl⟩ => ⟨l, hls, hl.of, hl.drawn, hl.candidates⟩
  candidateIds := h.candidateIds
  candidateDrawn := h.candidateDrawn
  exception := h.exception

section Target

variable {env : Env} {db db' : Db} {run run' : MappingRun} {version : MappingTemplateVersion}
  {rawId : UUID} {output : Output} {confidence : ℚ} {target : Materialized}

/-- The link of a materialized output, drawn behind its result. -/
def recordedLink (run : MappingRun) (version : MappingTemplateVersion) (rawId : UUID)
    (output : Output) (confidence : ℚ) (target : Materialized) : SourceCanonicalLink :=
  targetLink { target.db with
    results := target.db.results ++
      [targetResult target.db run version rawId output confidence target]
    nextId := target.db.nextId + 1 } run version rawId confidence target

theorem listedTarget_adds (hsame : SameRecords db target.db)
    (hkind : version.targetKind ≠ .entity → target.candidates = [])
    (hfree : ∀ r ∈ target.db.results, ¬ r.Clashes
      (targetResult target.db run version rawId output confidence target)) :
    Adds db (listedTarget run version rawId output confidence target)
      (targetResult target.db run version rawId output confidence target)
      [recordedLink run version rawId output confidence target]
      (candidateRows run.organizationId (target.db.nextId + 1) (target.db.nextId + 2)
        target.candidates) [] := by
  have hsupply := hsame.supply
  have hnext : (listedTarget run version rawId output confidence target).nextId =
      target.db.nextId + 2 + target.candidates.length := rfl
  refine {
    results := ?_
    links := ?_
    candidates := ?_
    exceptions := ?_
    resultFree := ?_
    resultDrawn := ⟨hsupply, ?_⟩
    link := .inr ⟨_, rfl, ⟨rfl, rfl, rfl, rfl⟩, ⟨?_, ?_⟩, ?_⟩
    candidateIds := candidateRows_unique _ _ _ _
    candidateDrawn := ?_
    exception := .inl rfl }
  · rw [← hsame.results]
    rfl
  · rw [← hsame.links]
    rfl
  · rw [← hsame.candidates]
    rfl
  · rw [← hsame.exceptions]
    exact (append_nil _).symm
  · rw [← hsame.results]
    exact hfree
  · rw [hnext]
    show target.db.nextId < _
    omega
  · show db.nextId ≤ target.db.nextId + 1
    omega
  · rw [hnext]
    show target.db.nextId + 1 < _
    omega
  · intro c hc
    obtain ⟨hlink, horg, hstatus, hlow, hhigh⟩ := mem_candidateRows hc
    refine ⟨hlink, horg, hstatus, ?_⟩
    by_contra hne
    rw [hkind hne] at hc
    exact absurd hc not_mem_nil
  · intro c hc
    obtain ⟨-, -, -, hlow, hhigh⟩ := mem_candidateRows hc
    constructor
    · omega
    · rw [hnext]
      exact hhigh

theorem recordTarget_adds (hsame : SameRecords db target.db)
    (hkind : version.targetKind ≠ .entity → target.candidates = [])
    (h : recordTarget run version rawId output confidence target = .ok (db', run')) :
    ∃ xs, Adds db db' (targetResult target.db run version rawId output confidence target)
      [recordedLink run version rawId output confidence target]
      (candidateRows run.organizationId (target.db.nextId + 1) (target.db.nextId + 2)
        target.candidates) xs := by
  obtain ⟨-, hfree, hsettle⟩ := recordTarget_eq h
  have hlisted := listedTarget_adds hsame hkind hfree
  rcases settleRecord_cases hsettle with ⟨-, -, type, rfl⟩ | ⟨-, -, rfl | ⟨-, rfl⟩⟩
  · exact ⟨_, hlisted.addException run.organizationId type []⟩
  · exact ⟨[], hlisted⟩
  · exact ⟨[], hlisted.setSurvivorship _ _⟩

end Target

/-- What one mapped record does: it adds an exception result, or the rows of its materialized
output. -/
theorem mapRecord_cases {env : Env} {db : Db} {run : MappingRun}
    {version : MappingTemplateVersion} {record : MappingInputRecord}
    (h : mapRecord env db run version record = .ok (db', run')) :
    ⟨record.rawRecordReferenceId, run.organizationId, run.datasetVersionId⟩ ∈ db.rawRecords ∧
      ((∃ type fields,
          mapFields env db run.organizationId version record.values =
            .error (.exception type fields) ∧
          exceptionResult db run version record.rawRecordReferenceId type fields =
            .ok (db', run')) ∨
        ∃ output scores target,
          mapFields env db run.organizationId version record.values = .ok (output, scores) ∧
          materializeTarget env db run.organizationId version output = .ok target ∧
          recordTarget run version record.rawRecordReferenceId output (minimumScore scores) target =
            .ok (db', run')) := by
  simp only [mapRecord, bind_eq_ok, ensure_eq_ok] at h
  obtain ⟨-, hraw, h⟩ := h
  refine ⟨hraw, ?_⟩
  split at h
  · rename_i type fields hfields
    exact .inl ⟨type, fields, hfields, h⟩
  · cases h
  · rename_i output scores hfields
    simp only [mapOutput, bind_eq_ok] at h
    obtain ⟨target, htarget, hrecord⟩ := h
    exact .inr ⟨output, scores, target, hfields, htarget, hrecord⟩

theorem mapRecord_adds {env : Env} {db : Db} {run : MappingRun} {version : MappingTemplateVersion}
    {record : MappingInputRecord} (h : mapRecord env db run version record = .ok (db', run')) :
    ∃ r ls cs xs, Adds db db' r ls cs xs ∧ r.mappingRunId = run.id ∧
      r.rawRecordReferenceId = record.rawRecordReferenceId := by
  rcases mapRecord_cases h with ⟨-, ⟨type, fields, -, hexception⟩ | ⟨output, scores, target, -,
    htarget, hrecord⟩⟩
  · obtain ⟨-, -, r, xs, hadds, -, hrun, hraw⟩ := exceptionResult_adds hexception
    exact ⟨r, [], [], xs, hadds, hrun, hraw⟩
  · obtain ⟨hsame, hkind, -⟩ := materializeTarget_records htarget
    obtain ⟨xs, hadds⟩ := recordTarget_adds hsame hkind hrecord
    exact ⟨_, _, _, xs, hadds, rfl, rfl⟩

end Intel4Ops.Mapping

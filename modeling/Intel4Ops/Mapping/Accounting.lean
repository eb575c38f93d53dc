import Intel4Ops.Mapping.Runs
import Intel4Ops.Mapping.Taken

/-!
# Runs that account for every record

A run is to finish with one result for every record, and with counters that add up. `Booked` is the
invariant of the tables behind any calls of the services, `accounts_iff` says when calls to
`execute` and `execute_claimed` account for their records: exactly when every record, in its turn,
is one that the run takes.
-/

namespace Intel4Ops.Mapping

open Lib List Prod

/-! ## The records of a run -/

/-- The tables of runs, their inputs and what these refer to are the same. -/
structure SameRuns (db db' : Db) : Prop where
  runs : db'.runs = db.runs
  inputs : db'.inputs = db.inputs
  rawRecords : db'.rawRecords = db.rawRecords
  versions : db'.versions = db.versions

theorem SameRuns.refl (db : Db) : SameRuns db db := ⟨rfl, rfl, rfl, rfl⟩

theorem SameRuns.trans {db db' db'' : Db} (h : SameRuns db db') (h' : SameRuns db' db'') :
    SameRuns db db'' :=
  ⟨h'.runs.trans h.runs, h'.inputs.trans h.inputs, h'.rawRecords.trans h.rawRecords,
    h'.versions.trans h.versions⟩

def MappingRun.count (run : MappingRun) (mapped rejected : ℕ) : MappingRun :=
  { run with
    mappedCount := run.mappedCount + mapped
    exceptionCount := run.exceptionCount + rejected
    rejectedCount := run.rejectedCount + rejected }

theorem MappingRun.count_count (run : MappingRun) (m m' x x' : ℕ) :
    (run.count m x).count m' x' = run.count (m + m') (x + x') := by
  simp only [count, Nat.add_assoc]

def resultsOf (db : Db) (runId : UUID) : List MappingRecordResult :=
  db.results.filter (·.mappingRunId = runId)

def Explained (db : Db) (r : MappingRecordResult) : Prop :=
  r.status = .mapped ∨ ∃ x ∈ db.exceptions, x.mappingRecordResultId = r.id

/-- What a run leaves for a list of records: a result for each of them, mapped or with an exception,
and as many counts. -/
structure Leaves (db db' : Db) (run run' : MappingRun) (raws : List UUID)
    (rs : List MappingRecordResult) : Prop where
  same : SameRuns db db'
  results : db'.results = db.results ++ rs
  exceptions : db.exceptions <+: db'.exceptions
  supply : db.nextId ≤ db'.nextId
  ofRun : ∀ r ∈ rs, r.mappingRunId = run.id
  rawIds : rs.map (·.rawRecordReferenceId) = raws
  explained : ∀ r ∈ rs, Explained db' r
  counts : ∃ m x, m + x = raws.length ∧ run' = run.count m x

section Leaves

variable {env : Env} {db db' db'' : Db} {version : MappingTemplateVersion}
  {run run' run'' : MappingRun}

theorem Leaves.nil (db : Db) (run : MappingRun) : Leaves db db run run [] [] where
  same := .refl db
  results := (append_nil _).symm
  exceptions := prefix_rfl
  supply := le_refl _
  ofRun _ h := absurd h not_mem_nil
  rawIds := rfl
  explained _ h := absurd h not_mem_nil
  counts := ⟨0, 0, rfl, rfl⟩

theorem Explained.mono {r : MappingRecordResult} (h : Explained db r)
    (hexceptions : db.exceptions <+: db'.exceptions) : Explained db' r :=
  h.imp_right fun ⟨x, hx, hid⟩ => ⟨x, hexceptions.subset hx, hid⟩

theorem Leaves.append {raws raws' : List UUID} {rs rs' : List MappingRecordResult}
    (h : Leaves db db' run run' raws rs) (h' : Leaves db' db'' run' run'' raws' rs') :
    Leaves db db'' run run'' (raws ++ raws') (rs ++ rs') where
  same := h.same.trans h'.same
  results := by rw [h'.results, h.results, append_assoc]
  exceptions := h.exceptions.trans h'.exceptions
  supply := h.supply.trans h'.supply
  ofRun r hr := by
    obtain ⟨m, x, -, hrun⟩ := h.counts
    rcases mem_append.1 hr with hr | hr
    · exact h.ofRun r hr
    · rw [h'.ofRun r hr, hrun]
      rfl
  rawIds := by rw [map_append, h.rawIds, h'.rawIds]
  explained r hr := by
    rcases mem_append.1 hr with hr | hr
    · exact (h.explained r hr).mono h'.exceptions
    · exact h'.explained r hr
  counts := by
    obtain ⟨m, x, hlength, rfl⟩ := h.counts
    obtain ⟨m', x', hlength', rfl⟩ := h'.counts
    refine ⟨m + m', x + x', ?_, run.count_count m m' x x'⟩
    rw [length_append]
    omega

theorem materializeTarget_sameRuns {org : UUID} {output : Output} {target : Materialized}
    (h : materializeTarget env db org version output = .ok target) : SameRuns db target.db := by
  unfold materializeTarget at h
  split at h
  · rcases materializeEntity_cases h with ⟨e, -, rfl⟩ | ⟨-, ⟨e, conflict, -, rfl⟩ | ⟨cs, -, rfl⟩⟩
    · exact .refl db
    · exact .refl db
    · exact ⟨rfl, rfl, rfl, rfl⟩
  all_goals
    simp only [bind_eq_ok, pure_eq_ok] at h
    obtain ⟨o, -, rows, -, rfl⟩ := h
    exact ⟨rfl, rfl, rfl, rfl⟩

theorem exceptionResult_leaves {rawId : UUID} {type : MappingExceptionType} {fields : List String}
    (h : exceptionResult db run version rawId type fields = .ok (db', run')) :
    ∃ r, Leaves db db' run run' [rawId] [r] := by
  simp only [exceptionResult, bind_eq_ok, pure_eq_ok, mk.injEq] at h
  obtain ⟨recorded, hadd, rfl, rfl⟩ := h
  obtain ⟨-, -, rfl⟩ := addResult_eq hadd
  refine ⟨_, {
    same := ⟨rfl, rfl, rfl, rfl⟩
    results := rfl
    exceptions := prefix_append _ _
    supply := ?_
    ofRun := ?_
    rawIds := rfl
    explained := ?_
    counts := ⟨0, 1, rfl, rfl⟩ }⟩
  · show db.nextId ≤ db.nextId + 1 + 1
    omega
  · intro r hr
    rw [mem_singleton.1 hr]
  · intro r hr
    rw [mem_singleton.1 hr]
    exact .inr ⟨_, mem_append_right _ (mem_singleton_self _), rfl⟩

theorem recordTarget_leaves {rawId : UUID} {output : Output} {confidence : ℚ}
    {target : Materialized} (hruns : SameRuns db target.db) (hsame : SameRecords db target.db)
    (hstatus : target.status = .mapped ∨ target.status = .ambiguous ∨ target.status = .conflicting)
    (h : recordTarget run version rawId output confidence target = .ok (db', run')) :
    ∃ r, Leaves db db' run run' [rawId] [r] := by
  obtain ⟨-, -, hsettle⟩ := recordTarget_eq h
  have hlisted : SameRuns db (listedTarget run version rawId output confidence target) :=
    hruns.trans ⟨rfl, rfl, rfl, rfl⟩
  refine ⟨targetResult target.db run version rawId output confidence target, ?_⟩
  have hresults : db.results ++ [targetResult target.db run version rawId output confidence target] =
      (listedTarget run version rawId output confidence target).results := by
    rw [← hsame.results]
    rfl
  have hsupply : db.nextId ≤ (listedTarget run version rawId output confidence target).nextId := by
    have hle := hsame.supply
    show db.nextId ≤ target.db.nextId + 1 + 1 + target.candidates.length
    omega
  rcases settleRecord_cases hsettle with ⟨-, rfl, type, rfl⟩ | ⟨hsettled, rfl, hdb⟩
  · exact {
      same := hlisted.trans ⟨rfl, rfl, rfl, rfl⟩
      results := hresults.symm
      exceptions := hsame.exceptions ▸ prefix_append _ _
      supply := hsupply.trans (Nat.le_succ _)
      ofRun := fun r hr => by rw [mem_singleton.1 hr]; rfl
      rawIds := rfl
      explained := fun r hr => by
        rw [mem_singleton.1 hr]
        exact .inr ⟨_, mem_append_right _ (mem_singleton_self _), rfl⟩
      counts := ⟨0, 1, rfl, rfl⟩ }
  · have hmapped : target.status = .mapped := by
      rcases hstatus with hmapped | hambiguous | hconflicting
      · exact hmapped
      · exact absurd hambiguous hsettled.1
      · exact absurd hconflicting hsettled.2
    have hexplained : ∀ db₁, ∀ r ∈ [targetResult target.db run version rawId output confidence
        target], Explained db₁ r := by
      intro db₁ r hr
      rw [mem_singleton.1 hr]
      exact .inl hmapped
    rcases hdb with rfl | ⟨-, rfl⟩
    all_goals exact {
      same := hlisted.trans ⟨rfl, rfl, rfl, rfl⟩
      results := hresults.symm
      exceptions := hsame.exceptions ▸ prefix_rfl
      supply := hsupply
      ofRun := fun r hr => by rw [mem_singleton.1 hr]; rfl
      rawIds := rfl
      explained := hexplained _
      counts := ⟨1, 0, rfl, rfl⟩ }

theorem mapRecord_leaves {record : MappingInputRecord}
    (h : mapRecord env db run version record = .ok (db', run')) :
    ∃ r, Leaves db db' run run' [record.rawRecordReferenceId] [r] := by
  rcases mapRecord_cases h with ⟨-, ⟨type, fields, -, hexception⟩ | ⟨output, scores, target, -,
    htarget, hrecord⟩⟩
  · exact exceptionResult_leaves hexception
  · obtain ⟨hsame, -, hstatus⟩ := materializeTarget_records htarget
    exact recordTarget_leaves (materializeTarget_sameRuns htarget) hsame hstatus hrecord

theorem mapRecords_leaves {records : List MappingInputRecord}
    (h : mapRecords env version db run records = .ok (db', run')) :
    ∃ rs, Leaves db db' run run' (records.map (·.rawRecordReferenceId)) rs := by
  induction records generalizing db run with
  | nil =>
    obtain ⟨rfl, rfl⟩ : db = db' ∧ run = run' := mk.inj (Except.ok.inj h)
    exact ⟨[], .nil db run⟩
  | cons record records ih =>
    simp only [mapRecords, bind_eq_ok] at h
    obtain ⟨⟨mid, counted⟩, hrecord, hrest⟩ := h
    obtain ⟨r, hr⟩ := mapRecord_leaves hrecord
    obtain ⟨rs, hrs⟩ := ih hrest
    exact ⟨[r] ++ rs, hr.append hrs⟩

end Leaves

/-! ## When a run takes its records -/

/-- The run takes every record, in the tables that the records before it leave. -/
def AllTaken (env : Env) (version : MappingTemplateVersion) (db : Db) (run : MappingRun)
    (records : List MappingInputRecord) : Prop :=
  ∀ before record after db' run', records = before ++ record :: after →
    mapRecords env version db run before = .ok (db', run') →
    Taken env db' run.organizationId version record

section Taking

variable {env : Env} {db : Db} {version : MappingTemplateVersion} {run : MappingRun}

theorem allTaken_cons {record : MappingInputRecord} {records : List MappingInputRecord} :
    AllTaken env version db run (record :: records) ↔
      Taken env db run.organizationId version record ∧
        ∀ db' run', mapRecord env db run version record = .ok (db', run') →
          AllTaken env version db' run' records := by
  constructor
  · intro h
    refine ⟨h [] record records db run rfl rfl, ?_⟩
    intro db' run' hrecord before next after db'' run'' hsplit hbefore
    obtain ⟨r, hleaves⟩ := mapRecord_leaves hrecord
    obtain ⟨m, x, -, hrun⟩ := hleaves.counts
    have horg : run'.organizationId = run.organizationId := by rw [hrun]; rfl
    rw [horg]
    refine h (record :: before) next after db'' run'' (congrArg (record :: ·) hsplit) ?_
    rw [mapRecords, hrecord]
    exact hbefore
  · rintro ⟨hrecord, hrest⟩ before next after db' run' hsplit hbefore
    cases before with
    | nil =>
      obtain ⟨rfl, rfl⟩ := List.cons.inj hsplit
      obtain ⟨rfl, rfl⟩ : db = db' ∧ run = run' := mk.inj (Except.ok.inj hbefore)
      exact hrecord
    | cons first before =>
      obtain ⟨rfl, rfl⟩ := List.cons.inj hsplit
      simp only [mapRecords, bind_eq_ok] at hbefore
      obtain ⟨⟨mid, counted⟩, hfirst, hbefore⟩ := hbefore
      obtain ⟨r, hleaves⟩ := mapRecord_leaves hfirst
      obtain ⟨m, x, -, rfl⟩ := hleaves.counts
      exact hrest mid _ hfirst before next after db' run' rfl hbefore

theorem mapRecords_iff_taken {records : List MappingInputRecord} (hsound : Sound db)
    (hraw : ∀ record ∈ records,
      ⟨record.rawRecordReferenceId, run.organizationId, run.datasetVersionId⟩ ∈ db.rawRecords)
    (hunmapped : ∀ record ∈ records, Unmapped db run version record.rawRecordReferenceId)
    (hnodup : (records.map (·.rawRecordReferenceId)).Nodup) :
    (∃ p, mapRecords env version db run records = .ok p) ↔ AllTaken env version db run records := by
  induction records generalizing db run with
  | nil =>
    refine iff_of_true ⟨_, rfl⟩ ?_
    intro before record after db' run' hsplit
    simp at hsplit
  | cons record records ih =>
    obtain ⟨hraw₁, hraw⟩ := forall_mem_cons.1 hraw
    obtain ⟨hunmapped₁, hunmapped⟩ := forall_mem_cons.1 hunmapped
    obtain ⟨hnew, hnodup⟩ := nodup_cons.1 hnodup
    rw [allTaken_cons, ← mapRecord_iff_taken hsound hraw₁ hunmapped₁]
    -- What the first record leaves meets the conditions of the others.
    have hrest : ∀ db' run', mapRecord env db run version record = .ok (db', run') →
        ((∃ p, mapRecords env version db' run' records = .ok p) ↔
          AllTaken env version db' run' records) := by
      intro db' run' hrecord
      obtain ⟨r, hleaves⟩ := mapRecord_leaves hrecord
      obtain ⟨r', ls, cs, xs, hadds, -, -⟩ := mapRecord_adds hrecord
      obtain ⟨m, x, -, rfl⟩ := hleaves.counts
      refine ih (hadds.sound hsound) ?_ ?_ hnodup
      · rw [hleaves.same.rawRecords]
        exact hraw
      · intro next hnext r₁ hr₁ hkey
        rw [hleaves.results, mem_append] at hr₁
        rcases hr₁ with hr₁ | hr₁
        · exact hunmapped next hnext r₁ hr₁ hkey
        · obtain rfl := mem_singleton.1 hr₁
          have hsame : r₁.rawRecordReferenceId = record.rawRecordReferenceId :=
            (List.cons.inj hleaves.rawIds).1
          have hkey : r₁.rawRecordReferenceId = next.rawRecordReferenceId :=
            (mk.inj (mk.inj hkey).2).1
          exact hnew (mem_map.2 ⟨next, hnext, hkey.symm.trans hsame⟩)
    constructor
    · rintro ⟨p, h⟩
      simp only [mapRecords, bind_eq_ok] at h
      obtain ⟨⟨mid, counted⟩, hrecord, hmapped⟩ := h
      refine ⟨⟨_, hrecord⟩, fun db' run' hrecord' => ?_⟩
      obtain ⟨rfl, rfl⟩ : mid = db' ∧ counted = run' :=
        mk.inj (Except.ok.inj (hrecord.symm.trans hrecord'))
      exact (hrest _ _ hrecord).1 ⟨p, hmapped⟩
    · rintro ⟨⟨⟨mid, counted⟩, hrecord⟩, htaken⟩
      rw [mapRecords, hrecord]
      exact (hrest _ _ hrecord).2 (htaken _ _ hrecord)

end Taking

end Intel4Ops.Mapping

import Intel4Ops.Mapping.Accounting

/-!
# Calls of the mapping services

All calls over one store, each of them a transaction. `Booked` is the invariant that they keep: a
pending run has its inputs, no results and no counts. `accountsForAll_iff` says when the calls that
carry runs out account for every record: exactly when every record, in its turn, is one that the run
takes.
-/

namespace Intel4Ops.Mapping

open Lib List Table Except Option Prod

/-! ## Calls -/

inductive RunRequest
  | mapping (request : Request)
  | submit (organizationId : UUID) (payload : MappingRunCreate) (requestFingerprint : String)
  | claimNext (workerId : String)
  | claimRun (organizationId runId : UUID) (workerId : String)
  | heartbeat (claim : MappingExecutionClaim)
  | recoverStale (staleAfter : ℤ) (limit : ℕ)
  | failClaimed (claim : MappingExecutionClaim) (code : String) (retryable : Bool)
  | fail (organizationId runId : UUID) (code : String) (retryable : Bool)
  | retry (organizationId runId : UUID) (key : String)

/-- A request at an instant. -/
structure Call where
  now : Instant
  request : RunRequest

/-- The environment at an instant. -/
def Env.at (env : Env) (now : Instant) : Env := { env with now }

/-- The mapping services over one store, one transaction after the other. -/
def calls (env : Env) : Service Db Call Unit Raised := fun db call =>
  match call.request with
  | .mapping request => service (env.at call.now) db request
  | .submit org payload print => (submit db org payload print call.now).map fun p => (p.1, ())
  | .claimNext worker => .ok (((claimNext db [] worker call.now).map (·.1)).getD db, ())
  | .claimRun org id worker => (claimRun db [] org id worker call.now).map fun p => (p.1, ())
  | .heartbeat claim => .ok ((heartbeat db claim call.now).1, ())
  | .recoverStale staleAfter limit => .ok ((recoverStale db [] call.now staleAfter limit).1, ())
  | .failClaimed claim code retryable => .ok ((failClaimed db claim code retryable).getD db, ())
  | .fail org id code retryable => (failRun db org id code retryable).map fun db' => (db', ())
  | .retry org id key => (retry db org id key call.now).map fun p => (p.1, ())

/-! ## What is to hold -/

/-- The run has finished and accounts for the records: it is stored, it has exactly one result for
each of them, mapped or with an exception, and its counters add up. -/
structure Accounted (db : Db) (run : MappingRun) (records : List MappingInputRecord) : Prop where
  stored : run ∈ db.runs
  finished : run.status = .completed ∨ run.status = .partiallyCompleted
  results : (resultsOf db run.id).map (·.rawRecordReferenceId) =
    records.map (·.rawRecordReferenceId)
  explained : ∀ r ∈ resultsOf db run.id, Explained db r
  inputs : run.inputCount = records.length
  counts : run.mappedCount + run.rejectedCount = run.inputCount
  exceptions : run.exceptionCount = run.rejectedCount

/-- The request starts a new run: its key is free, its scope and published version are there, and so
are its raw records, each of them once. -/
structure Starts (db : Db) (org : UUID) (payload : MappingRunCreate)
    (version : MappingTemplateVersion) : Prop where
  key : runUnderKey db org payload.idempotencyKey = none
  valid : validateRequest db org payload = .ok version
  rawRecords : ∀ record ∈ payload.records,
    ⟨record.rawRecordReferenceId, org, payload.datasetVersionId⟩ ∈ db.rawRecords
  distinct : (payload.records.map (·.rawRecordReferenceId)).Nodup

/-- The claim holds the run, whose inputs have distinct raw records. -/
structure Holds (db : Db) (claim : MappingExecutionClaim) (run : MappingRun) : Prop where
  held : (db.runs.find? fun r => r.HeldBy claim) = some run
  distinct : ((inputsOf db claim.organizationId run.id).map (·.rawRecordReferenceId)).Nodup

/-- The call, if it carries a run out, accounts for every record. -/
def AccountsForAll (env : Env) (db : Db) (call : Call) : Prop :=
  match call.request with
  | .mapping (.execute org payload print) => ∀ version, Starts db org payload version →
    ∃ db' run, execute (env.at call.now) db org payload print = .ok (db', run) ∧
      Accounted db' run payload.records
  | .mapping (.executeClaimed claim) => ∀ run, Holds db claim run →
    ∃ db' run', executeClaimed (env.at call.now) db claim = .ok (some (db', run')) ∧
      run'.id = run.id ∧ Accounted db' run' (inputsOf db claim.organizationId run.id)
  | _ => True

/-- The tables with the new run of a request. -/
def startedDb (env : Env) (db : Db) (org : UUID) (payload : MappingRunCreate) (print : String) :
    Db :=
  { db with
    runs := db.runs ++ [newRun env db.nextId org payload print]
    nextId := db.nextId + 1 }

/-- The call, if it carries a run out, takes every record in its turn. -/
def TakesAll (env : Env) (db : Db) (call : Call) : Prop :=
  match call.request with
  | .mapping (.execute org payload print) => ∀ version, Starts db org payload version →
    AllTaken (env.at call.now) version (startedDb (env.at call.now) db org payload print)
      (newRun (env.at call.now) db.nextId org payload print) payload.records
  | .mapping (.executeClaimed claim) => ∀ run version, Holds db claim run →
    requireVersion db run.templateVersionId claim.organizationId = .ok version →
    AllTaken (env.at call.now) version db run (inputsOf db claim.organizationId run.id)
  | _ => True

/-! ## The invariant -/

/-- A run that is still to be carried out. -/
def MappingRun.Pending (run : MappingRun) : Prop := run.status = .queued ∨ run.status = .running

/-- A run with inputs from its dataset version, and a visible template version. While it is pending,
it has all its inputs, no result and no counts. -/
structure RunSound (db : Db) (run : MappingRun) : Prop where
  drawn : run.id < db.nextId
  inputs : ∀ i ∈ inputRows db run.organizationId run.id,
    ⟨i.record.rawRecordReferenceId, run.organizationId, run.datasetVersionId⟩ ∈ db.rawRecords
  version : ∃ v, requireVersion db run.templateVersionId run.organizationId = .ok v
  pending : run.Pending →
    (run.mappedCount = 0 ∧ run.exceptionCount = 0 ∧ run.rejectedCount = 0) ∧
    (inputRows db run.organizationId run.id).length = run.inputCount ∧
    ∀ r ∈ db.results, r.mappingRunId ≠ run.id

/-- The tables behind any calls. -/
structure Booked (db : Db) : Prop where
  sound : Sound db
  runIds : Unique (·.id) db.runs
  runs : ∀ run ∈ db.runs, RunSound db run
  inputDrawn : ∀ i ∈ db.inputs, i.mappingRunId < db.nextId
  resultDrawn : ∀ r ∈ db.results, r.mappingRunId < db.nextId

/-- The run is the other one, which was pending if it is. -/
structure MappingRun.Continues (run' run : MappingRun) : Prop where
  id : run'.id = run.id
  organizationId : run'.organizationId = run.organizationId
  datasetVersionId : run'.datasetVersionId = run.datasetVersionId
  templateVersionId : run'.templateVersionId = run.templateVersionId
  inputCount : run'.inputCount = run.inputCount
  pending : run'.Pending → run.Pending ∧ run'.mappedCount = run.mappedCount ∧
    run'.exceptionCount = run.exceptionCount ∧ run'.rejectedCount = run.rejectedCount

theorem MappingRun.Continues.refl (run : MappingRun) : run.Continues run :=
  ⟨rfl, rfl, rfl, rfl, rfl, fun h => ⟨h, rfl, rfl, rfl⟩⟩

section Step

variable {env : Env} {db db' : Db} {run run' : MappingRun}

theorem requireVersion_congr (h : db'.versions = db.versions) (versionId org : UUID) :
    requireVersion db' versionId org = requireVersion db versionId org := by
  rw [requireVersion, requireVersion, h]

theorem RunSound.carry (h : RunSound db run) (hrun : run'.Continues run)
    (hinputs : inputRows db' run.organizationId run.id = inputRows db run.organizationId run.id)
    (hraw : db'.rawRecords = db.rawRecords) (hversions : db'.versions = db.versions)
    (hsupply : db.nextId ≤ db'.nextId)
    (hresults : ∀ r' ∈ db'.results, r'.mappingRunId = run.id →
      ∃ r ∈ db.results, r.mappingRunId = run.id) : RunSound db' run' where
  drawn := hrun.id ▸ h.drawn.trans_le hsupply
  inputs := by
    rw [hrun.id, hrun.organizationId, hrun.datasetVersionId, hinputs, hraw]
    exact h.inputs
  version := by
    rw [hrun.templateVersionId, hrun.organizationId, requireVersion_congr hversions]
    exact h.version
  pending hpending := by
    obtain ⟨hbefore, hmapped, hexceptions, hrejected⟩ := hrun.pending hpending
    obtain ⟨hcounts, hlength, hnone⟩ := h.pending hbefore
    rw [hmapped, hexceptions, hrejected, hrun.id, hrun.organizationId, hrun.inputCount, hinputs]
    refine ⟨hcounts, hlength, fun r' hr' hid => ?_⟩
    obtain ⟨r, hr, hid⟩ := hresults r' hr' hid
    exact hnone r hr hid

/-- Calls that rewrite runs, or rows of records, keep the invariant. -/
theorem Booked.carry (h : Booked db) (hsound : Sound db') (hinputs : db'.inputs = db.inputs)
    (hraw : db'.rawRecords = db.rawRecords) (hversions : db'.versions = db.versions)
    (hsupply : db.nextId ≤ db'.nextId)
    (hresults : ∀ r' ∈ db'.results, ∃ r ∈ db.results, r.mappingRunId = r'.mappingRunId)
    (hids : Unique (·.id) db'.runs)
    (hruns : ∀ run' ∈ db'.runs, ∃ run ∈ db.runs, run'.Continues run) : Booked db' where
  sound := hsound
  runIds := hids
  runs run' hrun' := by
    obtain ⟨run, hrun, hcontinues⟩ := hruns run' hrun'
    refine (h.runs run hrun).carry hcontinues ?_ hraw hversions hsupply fun r' hr' hid => ?_
    · rw [inputRows, inputRows, hinputs]
    · obtain ⟨r, hr, heq⟩ := hresults r' hr'
      exact ⟨r, hr, heq.trans hid⟩
  inputDrawn i hi := (h.inputDrawn i (hinputs ▸ hi)).trans_le hsupply
  resultDrawn r' hr' := by
    obtain ⟨r, hr, heq⟩ := hresults r' hr'
    exact heq ▸ (h.resultDrawn r hr).trans_le hsupply

theorem Booked.update_runs (h : Booked db) {p : MappingRun → Bool} {f : MappingRun → MappingRun}
    (hcontinues : ∀ run ∈ db.runs, p run = true → (f run).Continues run) (n : ℕ) :
    Booked { db with runs := update p f db.runs, nextId := db.nextId + n } := by
  refine h.carry (h.sound.of_same ⟨rfl, rfl, rfl, rfl, Nat.le_add_right _ _⟩) rfl rfl rfl
    (Nat.le_add_right _ _) (fun r hr => ⟨r, hr, rfl⟩)
    (h.runIds.update_of_selected fun run hrun hp => (hcontinues run hrun hp).id) ?_
  intro run' hrun'
  obtain ⟨run, hrun, rfl⟩ := mem_update.1 hrun'
  refine ⟨run, hrun, ?_⟩
  split
  · rename_i hp
    exact hcontinues run hrun hp
  · exact .refl run

theorem inputRows_append {rows : List MappingRunInput} {newId org runId : UUID}
    (hrows : ∀ i ∈ rows, i.mappingRunId = newId) (hinputs : db'.inputs = db.inputs ++ rows)
    (hne : runId ≠ newId) : inputRows db' org runId = inputRows db org runId := by
  have hnone : rows.filter (fun i => i.organizationId = org ∧ i.mappingRunId = runId) = [] := by
    rw [filter_eq_nil_iff]
    intro i hi hof
    exact hne ((of_decide_eq_true hof).2.symm.trans (hrows i hi))
  rw [inputRows, inputRows, hinputs, filter_append, hnone, append_nil]

theorem Booked.add_run (h : Booked db) {rows : List MappingRunInput} (hid : run.id = db.nextId)
    (hrows : ∀ i ∈ rows, i.mappingRunId = run.id ∧ i.organizationId = run.organizationId ∧
      ⟨i.record.rawRecordReferenceId, run.organizationId, run.datasetVersionId⟩ ∈ db.rawRecords)
    (hversion : ∃ v, requireVersion db run.templateVersionId run.organizationId = .ok v)
    (hcounts : run.mappedCount = 0 ∧ run.exceptionCount = 0 ∧ run.rejectedCount = 0)
    (hlength : rows.length = run.inputCount) :
    Booked { db with
      runs := db.runs ++ [run]
      inputs := db.inputs ++ rows
      nextId := db.nextId + 1 } := by
  have hnew : inputRows { db with
      runs := db.runs ++ [run]
      inputs := db.inputs ++ rows
      nextId := db.nextId + 1 } run.organizationId run.id =
        rows.insertionSort fun a b => a.recordSequence ≤ b.recordSequence := by
    have hold : db.inputs.filter (fun i => i.organizationId = run.organizationId ∧
        i.mappingRunId = run.id) = [] := by
      rw [filter_eq_nil_iff]
      intro i hi hof
      have hlt := h.inputDrawn i hi
      rw [(of_decide_eq_true hof).2, hid] at hlt
      exact lt_irrefl _ hlt
    have hall : rows.filter (fun i => i.organizationId = run.organizationId ∧
        i.mappingRunId = run.id) = rows := by
      rw [filter_eq_self]
      intro i hi
      exact decide_eq_true ⟨(hrows i hi).2.1, (hrows i hi).1⟩
    rw [inputRows, filter_append, hold, hall, nil_append]
  refine {
    sound := h.sound.of_same ⟨rfl, rfl, rfl, rfl, Nat.le_succ _⟩
    runIds := h.runIds.append fun r hr => ?_
    runs := fun r hr => ?_
    inputDrawn := fun i hi => ?_
    resultDrawn := fun r hr => (h.resultDrawn r hr).trans (Nat.lt_succ_self _) }
  · rw [hid]
    exact (h.runs r hr).drawn.ne
  · rcases mem_append.1 hr with hr | hr
    · refine (h.runs r hr).carry (.refl r) ?_ rfl rfl (Nat.le_succ _)
        fun r' hr' hid' => ⟨r', hr', hid'⟩
      refine inputRows_append (fun i hi => (hrows i hi).1) rfl ?_
      rw [hid]
      exact (h.runs r hr).drawn.ne
    · obtain rfl := mem_singleton.1 hr
      have hperm := perm_insertionSort (fun a b : MappingRunInput =>
        a.recordSequence ≤ b.recordSequence) rows
      refine {
        drawn := hid ▸ Nat.lt_succ_self _
        inputs := fun i hi => (hrows i (hperm.mem_iff.1 (hnew ▸ hi))).2.2
        version := hversion
        pending := fun _ => ⟨hcounts, ?_, fun r' hr' hof => ?_⟩ }
      · rw [hnew, hperm.length_eq, hlength]
      · have hlt := h.resultDrawn r' hr'
        rw [hof, hid] at hlt
        exact lt_irrefl _ hlt
  · rcases mem_append.1 hi with hi | hi
    · exact (h.inputDrawn i hi).trans (Nat.lt_succ_self _)
    · rw [(hrows i hi).1, hid]
      exact Nat.lt_succ_self _

/-- A run that is carried out keeps the invariant: it is no longer pending, and no other run has
new results. -/
theorem Booked.executed (h : Booked db) {rs : List MappingRecordResult} (hsound : Sound db')
    (hinputs : db'.inputs = db.inputs) (hraw : db'.rawRecords = db.rawRecords)
    (hversions : db'.versions = db.versions) (hsupply : db.nextId ≤ db'.nextId)
    (hresults : db'.results = db.results ++ rs) (hrs : ∀ r ∈ rs, r.mappingRunId = run.id)
    (hids : Unique (·.id) db'.runs)
    (hruns : ∀ r ∈ db'.runs, r = run ∨ r ∈ db.runs ∧ r.id ≠ run.id)
    (hrun : RunSound db' run) : Booked db' where
  sound := hsound
  runIds := hids
  runs r hr := by
    rcases hruns r hr with rfl | ⟨hr, hne⟩
    · exact hrun
    · refine (h.runs r hr).carry (.refl r) ?_ hraw hversions hsupply fun r' hr' hid => ?_
      · rw [inputRows, inputRows, hinputs]
      · rw [hresults, mem_append] at hr'
        rcases hr' with hr' | hr'
        · exact ⟨r', hr', hid⟩
        · exact absurd (hid.symm.trans (hrs r' hr')) hne
  inputDrawn i hi := (h.inputDrawn i (hinputs ▸ hi)).trans_le hsupply
  resultDrawn r hr := by
    rw [hresults, mem_append] at hr
    rcases hr with hr | hr
    · exact (h.resultDrawn r hr).trans_le hsupply
    · exact hrs r hr ▸ hrun.drawn

end Step

/-! ## Carrying a run out -/

/-- The run at its end. -/
def MappingRun.finish (run : MappingRun) (lease : Option UUID) (worker : Option String) :
    MappingRun :=
  { run with
    status := run.finalStatus
    executionLeaseId := lease
    executionWorkerId := worker }

theorem MappingRun.finish_status (run : MappingRun) (lease : Option UUID) (worker : Option String) :
    (run.finish lease worker).status = .completed ∨
      (run.finish lease worker).status = .partiallyCompleted := by
  show run.finalStatus = _ ∨ run.finalStatus = _
  unfold finalStatus
  split
  · exact .inl rfl
  · exact .inr rfl

theorem MappingRun.finish_not_pending (run : MappingRun) (lease : Option UUID)
    (worker : Option String) : ¬ (run.finish lease worker).Pending := by
  rintro (hqueued | hrunning)
  · rcases run.finish_status lease worker with h | h <;> rw [h] at hqueued <;> cases hqueued
  · rcases run.finish_status lease worker with h | h <;> rw [h] at hrunning <;> cases hrunning

section Execute

variable {env : Env} {db db' mapped : Db} {org : UUID} {payload : MappingRunCreate}
  {print : String} {run counted final : MappingRun} {version : MappingTemplateVersion}

variable {r : MappingRun}

theorem mem_writeRun (h : r ∈ (writeRun db run).runs) : r = run ∨ r ∈ db.runs ∧ r.id ≠ run.id := by
  obtain ⟨r₀, hr₀, rfl⟩ := mem_update.1 h
  by_cases hid : r₀.id = run.id
  · rw [if_pos (decide_eq_true hid)]
    exact .inl rfl
  · rw [if_neg (by simpa using hid)]
    exact .inr ⟨hr₀, hid⟩

theorem writeRun_stored (hr : r ∈ db.runs) (hid : r.id = run.id) : run ∈ (writeRun db run).runs :=
  mem_update_of_selected (f := fun _ => run) hr (decide_eq_true hid)

theorem writeRun_ids (h : Unique (·.id) db.runs) : Unique (·.id) (writeRun db run).runs :=
  h.update_of_selected fun _ _ hid => (of_decide_eq_true hid).symm

/-- A run whose records are mapped, and that had no counts or results before, accounts for them. -/
theorem Leaves.accounted {start : Db} {records : List MappingInputRecord}
    {rs : List MappingRecordResult} {lease : Option UUID} {worker : Option String}
    (h : Leaves start mapped run counted (records.map (·.rawRecordReferenceId)) rs)
    (hrun : run ∈ start.runs)
    (hcounts : run.mappedCount = 0 ∧ run.exceptionCount = 0 ∧ run.rejectedCount = 0)
    (hlength : run.inputCount = records.length)
    (hnone : ∀ r ∈ start.results, r.mappingRunId ≠ run.id) :
    Accounted (writeRun mapped (counted.finish lease worker)) (counted.finish lease worker)
      records := by
  obtain ⟨m, x, htotal, rfl⟩ := h.counts
  obtain ⟨hmapped, hexceptions, hrejected⟩ := hcounts
  have hresults : resultsOf mapped run.id = rs := by
    have hold : start.results.filter (fun r => r.mappingRunId = run.id) = [] := by
      rw [filter_eq_nil_iff]
      exact fun r hr hof => hnone r hr (of_decide_eq_true hof)
    have hnew : rs.filter (fun r => r.mappingRunId = run.id) = rs := by
      rw [filter_eq_self]
      exact fun r hr => decide_eq_true (h.ofRun r hr)
    rw [resultsOf, h.results, filter_append, hold, hnew, nil_append]
  have hresults : resultsOf (writeRun mapped ((run.count m x).finish lease worker)) run.id = rs :=
    hresults
  have hstored : run ∈ mapped.runs := by rw [h.same.runs]; exact hrun
  refine {
    stored := writeRun_stored hstored rfl
    finished := MappingRun.finish_status _ _ _
    results := ?_
    explained := fun r hr => h.explained r (hresults ▸ hr)
    inputs := hlength
    counts := ?_
    exceptions := ?_ }
  · show (resultsOf _ run.id).map _ = _
    rw [hresults, h.rawIds]
  · show run.mappedCount + m + (run.rejectedCount + x) = run.inputCount
    rw [length_map] at htotal
    omega
  · show run.exceptionCount + x = run.rejectedCount + x
    omega

/-- What `execute` does with a new request. -/
theorem execute_eq (hstarts : Starts db org payload version) : execute env db org payload print =
      (mapRecords env version (startedDb env db org payload print)
        (newRun env db.nextId org payload print) payload.records).map fun p =>
          let final := p.2.finish p.2.executionLeaseId p.2.executionWorkerId
          (writeRun p.1 final, final) := by
  have hkey : (db.runs.find? fun r => r.organizationId = org ∧
      r.idempotencyKey = payload.idempotencyKey) = none := hstarts.key
  simp only [execute, hkey, hstarts.valid, ok_bind, startedDb]
  cases mapRecords env version _ _ payload.records with
  | error e | ok p => rfl

theorem validateRequest_ok (h : validateRequest db org payload = .ok version) :
    requireVersion db payload.templateVersionId org = .ok version := by
  simp only [validateRequest, bind_eq_ok, pure_eq_ok] at h
  obtain ⟨-, -, schema, -, -, -, -, -, v, hversion, -, -, rfl⟩ := h
  exact hversion

/-- `execute` accounts for the records of a new request exactly when it takes each of them. -/
theorem Booked.execute_accounted_iff (h : Booked db) (hstarts : Starts db org payload version) :
    (∃ db' run, execute env db org payload print = .ok (db', run) ∧
        Accounted db' run payload.records) ↔
      AllTaken env version (startedDb env db org payload print)
        (newRun env db.nextId org payload print) payload.records := by
  have hsound : Sound (startedDb env db org payload print) :=
    h.sound.of_same ⟨rfl, rfl, rfl, rfl, Nat.le_succ _⟩
  have hnone : ∀ r ∈ db.results, r.mappingRunId ≠ db.nextId := fun r hr =>
    (h.resultDrawn r hr).ne
  have hunmapped : ∀ record ∈ payload.records, Unmapped (startedDb env db org payload print)
      (newRun env db.nextId org payload print) version record.rawRecordReferenceId := by
    intro record _ r hr hkey
    exact hnone r hr (mk.inj hkey).1
  rw [← mapRecords_iff_taken hsound hstarts.rawRecords hunmapped hstarts.distinct,
    execute_eq hstarts]
  constructor
  · rintro ⟨db', run, hrun, -⟩
    obtain ⟨p, hmapped, -⟩ := map_eq_ok.1 hrun
    exact ⟨p, hmapped⟩
  · rintro ⟨⟨mapped, counted⟩, hmapped⟩
    obtain ⟨rs, hleaves⟩ := mapRecords_leaves hmapped
    refine ⟨_, _, map_eq_ok.2 ⟨_, hmapped, rfl⟩, ?_⟩
    exact hleaves.accounted (mem_append_right _ (mem_singleton_self _)) ⟨rfl, rfl, rfl⟩ rfl hnone

/-- What `execute_claimed` does with a run that the claim holds. -/
theorem executeClaimed_eq {claim : MappingExecutionClaim}
    (hheld : (db.runs.find? fun r => r.HeldBy claim) = some run)
    (hversion : requireVersion db run.templateVersionId claim.organizationId = .ok version) :
    executeClaimed env db claim =
      match mapRecords env version db run (inputsOf db claim.organizationId run.id) with
      | .error e => .ok (some (writeRun db (run.failed (failureCode e) false),
          run.failed (failureCode e) false))
      | .ok (mapped, counted) => .ok (some (writeRun mapped (counted.finish none none),
          counted.finish none none)) := by
  simp only [executeClaimed, hheld, hversion, ok_bind]
  cases mapRecords env version db run (inputsOf db claim.organizationId run.id) with
  | error e | ok p => rfl

/-- `execute_claimed` accounts for the records of the run that the claim holds exactly when it takes
each of them. -/
theorem Booked.executeClaimed_accounted_iff (h : Booked db) {claim : MappingExecutionClaim}
    (hholds : Holds db claim run)
    (hversion : requireVersion db run.templateVersionId claim.organizationId = .ok version) :
    (∃ db' run', executeClaimed env db claim = .ok (some (db', run')) ∧ run'.id = run.id ∧
        Accounted db' run' (inputsOf db claim.organizationId run.id)) ↔
      AllTaken env version db run (inputsOf db claim.organizationId run.id) := by
  obtain ⟨hrun, -, horg, hrunning, -⟩ := find?_spec hholds.held
  have hsound := h.runs run hrun
  obtain ⟨hcounts, hlength, hnone⟩ := hsound.pending (.inr hrunning)
  have hraw : ∀ record ∈ inputsOf db claim.organizationId run.id,
      ⟨record.rawRecordReferenceId, run.organizationId, run.datasetVersionId⟩ ∈ db.rawRecords := by
    intro record hrecord
    rw [← horg] at hrecord
    obtain ⟨i, hi, rfl⟩ := mem_map.1 hrecord
    exact hsound.inputs i hi
  have hunmapped : ∀ record ∈ inputsOf db claim.organizationId run.id,
      Unmapped db run version record.rawRecordReferenceId := by
    intro record _ r hr hkey
    exact hnone r hr (mk.inj hkey).1
  have hinputs : run.inputCount = (inputsOf db claim.organizationId run.id).length := by
    rw [← hlength, ← horg]
    exact (length_map _).symm
  rw [← mapRecords_iff_taken h.sound hraw hunmapped hholds.distinct,
    executeClaimed_eq hholds.held hversion]
  constructor
  · rintro ⟨db', run', hclaimed, -, haccounted⟩
    split at hclaimed
    · -- The run has failed, so it accounts for nothing.
      obtain ⟨-, rfl⟩ := mk.inj (some.inj (ok.inj hclaimed))
      rcases haccounted.finished with hstatus | hstatus <;> cases hstatus
    · rename_i mapped counted hmapped
      exact ⟨_, hmapped⟩
  · rintro ⟨⟨mapped, counted⟩, hmapped⟩
    obtain ⟨rs, hleaves⟩ := mapRecords_leaves hmapped
    rw [hmapped]
    refine ⟨_, _, rfl, ?_, hleaves.accounted hrun hcounts hinputs hnone⟩
    obtain ⟨m, x, -, rfl⟩ := hleaves.counts
    rfl

theorem Booked.accounts_iff (h : Booked db) (call : Call) :
    AccountsForAll env db call ↔ TakesAll env db call := by
  unfold AccountsForAll TakesAll
  split
  · refine forall_congr' fun version => forall_congr' fun hstarts => ?_
    exact h.execute_accounted_iff hstarts
  · rename_i claim _
    refine forall_congr' fun run => ?_
    constructor
    · intro haccounts version hholds hversion
      exact (h.executeClaimed_accounted_iff hholds hversion).1 (haccounts hholds)
    · intro htakes hholds
      obtain ⟨hrun, -, horg, -, -⟩ := find?_spec hholds.held
      obtain ⟨version, hversion⟩ := (h.runs run hrun).version
      rw [horg] at hversion
      exact (h.executeClaimed_accounted_iff hholds hversion).2 (htakes version hholds hversion)
  · exact Iff.rfl

end Execute

/-! ## Calls keep the invariant -/

namespace MappingRun.Continues

variable {run : MappingRun}

theorem claimed (h : run.status = .queued) (workerId : String) (leaseId : UUID) (now : Instant) :
    (run.claimed workerId leaseId now).Continues run :=
  ⟨rfl, rfl, rfl, rfl, rfl, fun _ => ⟨.inl h, rfl, rfl, rfl⟩⟩

theorem beating (run : MappingRun) (beat : Option Instant) :
    ({ run with heartbeatAt := beat } : MappingRun).Continues run :=
  ⟨rfl, rfl, rfl, rfl, rfl, fun h => ⟨h, rfl, rfl, rfl⟩⟩

theorem failed (run : MappingRun) (code : String) (retryable : Bool) :
    (run.failed code retryable).Continues run :=
  ⟨rfl, rfl, rfl, rfl, rfl, fun h => by rcases h with h | h <;> cases h⟩

theorem markFailed (run : MappingRun) (code : String) (retryable : Bool) :
    (run.markFailed code retryable).Continues run :=
  ⟨rfl, rfl, rfl, rfl, rfl, fun h => by rcases h with h | h <;> cases h⟩

end MappingRun.Continues

section Calls

variable {env : Env} {db db' : Db} {org : UUID} {run run' : MappingRun}

theorem Booked.write_run (h : Booked db) (hrun : run ∈ db.runs) (hcontinues : run'.Continues run)
    (n : ℕ) : Booked { writeRun db run' with nextId := db.nextId + n } := by
  refine h.update_runs (fun r hr hid => ?_) n
  have heq : r = run := h.runIds.eq_of_key_eq hr hrun ((of_decide_eq_true hid).trans hcontinues.id)
  exact heq ▸ hcontinues

theorem Booked.claimRow (h : Booked db) (hrun : run ∈ db.runs) (hqueued : run.status = .queued)
    (workerId : String) (now : Instant) : Booked (claimRow db run workerId now).1 :=
  h.write_run hrun (.claimed hqueued workerId db.nextId now) 1

variable {now : Instant} {runId : UUID}

variable {p : Db × MappingExecutionClaim} {workerId print : String} {retryable : Bool}
  {predecessor : MappingRun} {actor id : UUID}

theorem Booked.claimNext (h : Booked db) {locked : List UUID}
    (hclaim : claimNext db locked workerId now = some p) : Booked p.1 := by
  obtain ⟨run, hnext, rfl⟩ := map_eq_some_iff.1 hclaim
  have hmem := mem_of_mem_head? hnext
  rw [(perm_insertionSort _ _).mem_iff, mem_filter] at hmem
  exact h.claimRow hmem.1 (of_decide_eq_true hmem.2).1 workerId now

theorem Booked.claimRun (h : Booked db) {locked : List UUID}
    (hclaim : claimRun db locked org runId workerId now = .ok p) : Booked p.1 := by
  unfold Mapping.claimRun at hclaim
  split at hclaim
  · rename_i run hfind
    obtain ⟨hrun, -, -, hqueued, -⟩ := find?_spec hfind
    obtain rfl := ok.inj hclaim
    exact h.claimRow hrun hqueued workerId now
  · simp [bind_eq_ok] at hclaim

theorem Booked.failClaimed (h : Booked db) {claim : MappingExecutionClaim} {code : String}
    (hfail : failClaimed db claim code retryable = some db') : Booked db' := by
  unfold Mapping.failClaimed at hfail
  split at hfail
  · obtain rfl := some.inj hfail
    exact h.update_runs (fun run _ _ => .failed run code retryable) 0
  · cases hfail

theorem Booked.failRun (h : Booked db) {code : String}
    (hfail : failRun db org runId code retryable = .ok db') : Booked db' := by
  simp only [Mapping.failRun, bind_eq_ok, pure_eq_ok] at hfail
  obtain ⟨run, -, rfl⟩ := hfail
  exact h.update_runs (fun run _ _ => .markFailed run code retryable) 0

theorem getRun_ok (h : getRun db org runId = .ok run) :
    run ∈ db.runs ∧ run.id = runId ∧ run.organizationId = org := by
  rw [getRun, orFail_eq_ok] at h
  exact find?_spec h

/-- What `retry` reads: nothing to do, or a failed run that may be retried, with all its inputs. -/
theorem readRetry_retryable {key : String} {inputs : List MappingRunInput}
    (h : readRetry db org runId key = .ok (.retryable predecessor inputs)) :
    predecessor ∈ db.runs ∧ predecessor.id = runId ∧ predecessor.organizationId = org ∧
      predecessor.status = .failed ∧ predecessor.failureRetryable = some true ∧
      inputs = inputRows db org predecessor.id ∧ inputs.length = predecessor.inputCount := by
  simp only [readRetry, bind_eq_ok] at h
  obtain ⟨run, hrun, h⟩ := h
  split at h
  · split at h
    · cases h
    · cases h
  · simp only [readRetryable, bind_eq_ok, ensure_eq_ok, pure_eq_ok] at h
    obtain ⟨-, -, -, hfailed, -, hretryable, -, hlength, heq⟩ := h
    obtain ⟨rfl, rfl⟩ : run = predecessor ∧ inputRows db org run.id = inputs := by
      simpa using heq
    obtain ⟨hmem, hid, horg⟩ := getRun_ok hrun
    exact ⟨hmem, hid, horg, hfailed, hretryable, rfl, hlength⟩

/-- What `retry` writes: the next attempt with copies of the inputs, or nothing. -/
theorem writeRetry_cases {child : MappingRun} {inputs : List MappingRunInput} {key : String}
    {created : Bool}
    (h : writeRetry db org predecessor inputs key now = .ok (db', child, created)) :
    db' = db ∨ (∀ r ∈ db.runs, ¬ r.Clashes (retryChild predecessor db.nextId key now)) ∧
      db' = { db with
        runs := db.runs ++ [retryChild predecessor db.nextId key now]
        inputs := db.inputs ++ inputs.map fun i => { i with mappingRunId := db.nextId }
        nextId := db.nextId + 1 } := by
  simp only [writeRetry] at h
  split at h
  · rename_i runs hinsert
    obtain ⟨hfree, rfl⟩ := insert_eq_some.1 hinsert
    exact .inr ⟨hfree, (congrArg fst (ok.inj h)).symm⟩
  · split at h
    · exact .inl (congrArg fst (ok.inj h)).symm
    · cases h

section

variable (h : Booked db)
include h

theorem Booked.retry {key : String} {p : Db × MappingRun × Bool}
    (hretry : retry db org runId key now = .ok p) : Booked p.1 := by
  simp only [Mapping.retry, bind_eq_ok] at hretry
  obtain ⟨read, hread, hretry⟩ := hretry
  cases read with
  | found child =>
    obtain rfl := pure_eq_ok.1 hretry
    exact h
  | retryable predecessor inputs =>
    obtain ⟨hmem, -, rfl, -, -, rfl, hlength⟩ := readRetry_retryable hread
    obtain ⟨db', child, created⟩ := p
    rcases writeRetry_cases hretry with rfl | ⟨-, rfl⟩
    · exact h
    · have hsound := h.runs predecessor hmem
      refine h.add_run rfl ?_ hsound.version ⟨rfl, rfl, rfl⟩ ?_
      · intro i hi
        obtain ⟨i₀, hi₀, rfl⟩ := mem_map.1 hi
        have hrow := hi₀
        rw [inputRows, (perm_insertionSort _ _).mem_iff, mem_filter] at hrow
        exact ⟨rfl, (of_decide_eq_true hrow.2).1, hsound.inputs i₀ hi₀⟩
      · rw [length_map]
        exact hlength

theorem Booked.submit {payload : MappingRunCreate} {p : Db × MappingRun × Bool}
    (hsubmit : submit db org payload print now = .ok p) : Booked p.1 := by
  unfold Mapping.submit at hsubmit
  split at hsubmit
  · split at hsubmit
    · obtain rfl := ok.inj hsubmit
      exact h
    · cases hsubmit
  · simp only [validateSubmission, bind_eq_ok, ensure_eq_ok, pure_eq_ok] at hsubmit
    obtain ⟨-, ⟨version, hvalid, hraw⟩, rfl⟩ := hsubmit
    refine h.add_run rfl ?_ ⟨version, validateRequest_ok hvalid⟩ ⟨rfl, rfl, rfl⟩ ?_
    · intro i hi
      obtain ⟨⟨record, sequence⟩, hrecord, rfl⟩ := mem_map.1 hi
      exact ⟨rfl, rfl, hraw record (fst_mem_of_mem_zipIdx hrecord)⟩
    · rw [submittedInputs, length_map, length_zipIdx]
      rfl

theorem Booked.recoverStale (locked : List UUID) (now : Instant) (staleAfter : ℤ) (limit : ℕ) :
    Booked (recoverStale db locked now staleAfter limit).1 :=
  h.update_runs (fun run _ _ => .failed run _ true) 0

theorem Booked.heartbeat (claim : MappingExecutionClaim) (now : Instant) :
    Booked (heartbeat db claim now).1 :=
  h.update_runs (fun run _ _ => .beating run (some now)) 0

theorem Booked.of_records (hsound : Sound db') (hsame : SameRuns db db')
    (hsupply : db.nextId ≤ db'.nextId)
    (hresults : ∀ r' ∈ db'.results, ∃ r ∈ db.results, r.mappingRunId = r'.mappingRunId) :
    Booked db' :=
  h.carry hsound hsame.inputs hsame.rawRecords hsame.versions hsupply hresults
    (hsame.runs ▸ h.runIds) fun run hrun => ⟨run, hsame.runs ▸ hrun, .refl run⟩

theorem Booked.reviewException {decision : MappingReviewDecision}
    (hok : reviewException db org id decision actor = .ok db') : Booked db' := by
  have hsound := h.sound.reviewException hok
  obtain ⟨x, -, -, rfl⟩ := reviewException_eq hok
  exact h.of_records hsound ⟨rfl, rfl, rfl, rfl⟩ (Nat.le_succ _) fun r hr => ⟨r, hr, rfl⟩

theorem Booked.decideCandidate {decision : EntityMatchDecision}
    (hok : decideCandidate db org id decision actor = .ok db') : Booked db' := by
  have hsound := h.sound.decideCandidate hok
  rcases decideCandidate_cases hok with ⟨-, c, -, rfl⟩ | ⟨-, c, l, r, -, -, -, rfl⟩
  · exact h.of_records hsound ⟨rfl, rfl, rfl, rfl⟩ (le_refl _) fun r hr => ⟨r, hr, rfl⟩
  · refine h.of_records hsound ⟨rfl, rfl, rfl, rfl⟩ (le_refl _) fun r' hr' => ?_
    obtain ⟨r₀, hr₀, rfl⟩ := mem_update.1 hr'
    refine ⟨r₀, hr₀, ?_⟩
    split <;> rfl

/-- A run that is carried out behind stored tables leaves sound tables. -/
theorem Booked.finished {start mapped : Db} {counted : MappingRun} {raws : List UUID}
    {rs : List MappingRecordResult} {lease : Option UUID} {worker : Option String}
    (hleaves : Leaves start mapped run counted raws rs) (hinputs : start.inputs = db.inputs)
    (hraw : start.rawRecords = db.rawRecords) (hversions : start.versions = db.versions)
    (hsupply : db.nextId ≤ start.nextId) (hresults : start.results = db.results)
    (hids : Unique (·.id) start.runs) (hruns : ∀ r ∈ start.runs, r ∈ db.runs ∨ r.id = run.id)
    (hdrawn : run.id < start.nextId) (hrows : ∀ i ∈ inputRows db run.organizationId run.id,
      ⟨i.record.rawRecordReferenceId, run.organizationId, run.datasetVersionId⟩ ∈ db.rawRecords)
    (hversion : ∃ v, requireVersion db run.templateVersionId run.organizationId = .ok v)
    (hsound : Sound (writeRun mapped (counted.finish lease worker))) :
    Booked (writeRun mapped (counted.finish lease worker)) := by
  obtain ⟨m, x, -, rfl⟩ := hleaves.counts
  have hinputs' : mapped.inputs = db.inputs := hleaves.same.inputs.trans hinputs
  have hversions' : mapped.versions = db.versions := hleaves.same.versions.trans hversions
  have hraw' : mapped.rawRecords = db.rawRecords := hleaves.same.rawRecords.trans hraw
  have hofRun : ∀ r ∈ rs, r.mappingRunId = ((run.count m x).finish lease worker).id := hleaves.ofRun
  refine h.executed hsound hinputs' hraw' hversions' (hsupply.trans hleaves.supply)
    (hleaves.results.trans (by rw [hresults])) hofRun
    (writeRun_ids (hleaves.same.runs ▸ hids)) (fun r hr => ?_) {
      drawn := hdrawn.trans_le hleaves.supply
      inputs := ?_
      version := ?_
      pending := fun hpending => absurd hpending (MappingRun.finish_not_pending _ _ _) }
  · rcases mem_writeRun hr with rfl | ⟨hr, hne⟩
    · exact .inl rfl
    · rcases hruns r (hleaves.same.runs ▸ hr) with hr | hid
      · exact .inr ⟨hr, hne⟩
      · exact absurd hid hne
  · show ∀ i ∈ inputRows mapped run.organizationId run.id, _ ∈ mapped.rawRecords
    rw [inputRows, hinputs', hraw']
    exact hrows
  · show ∃ v, requireVersion mapped run.templateVersionId run.organizationId = .ok v
    rw [requireVersion_congr hversions']
    exact hversion

theorem Booked.execute {payload : MappingRunCreate}
    (hok : execute env db org payload print = .ok (db', run)) : Booked db' := by
  have hsound := (execute_extends hok).1 h.sound
  unfold Mapping.execute at hok
  split at hok
  · split at hok
    · obtain ⟨rfl, -⟩ := mk.inj (ok.inj hok)
      exact h
    · cases hok
  · simp only [bind_eq_ok, pure_eq_ok, mk.injEq] at hok
    obtain ⟨version, hvalid, ⟨mapped, counted⟩, hmapped, rfl, rfl⟩ := hok
    obtain ⟨rs, hleaves⟩ := mapRecords_leaves hmapped
    have hfresh : ∀ r ∈ db.runs, r.id ≠ db.nextId := fun r hr => (h.runs r hr).drawn.ne
    refine h.finished hleaves rfl rfl rfl (Nat.le_succ _) rfl (h.runIds.append hfresh) ?_
      (Nat.lt_succ_self _) ?_ ⟨version, validateRequest_ok hvalid⟩ hsound
    · intro r hr
      rcases mem_append.1 hr with hr | hr
      · exact .inl hr
      · exact .inr (by rw [mem_singleton.1 hr])
    · intro i hi
      rw [inputRows, (perm_insertionSort _ _).mem_iff, mem_filter] at hi
      have hlt := h.inputDrawn i hi.1
      rw [(of_decide_eq_true hi.2).2] at hlt
      exact absurd hlt (lt_irrefl _)

theorem Booked.executeClaimed {claim : MappingExecutionClaim}
    (hok : executeClaimed env db claim = .ok (some (db', run'))) : Booked db' := by
  have hsound := (executeClaimed_extends hok).1 h.sound
  cases hheld : db.runs.find? fun r => r.HeldBy claim with
  | none =>
    simp only [Mapping.executeClaimed, hheld] at hok
    cases hok
  | some run =>
    obtain ⟨hrun, -, horg, -, -⟩ := find?_spec hheld
    have hrunSound := h.runs run hrun
    obtain ⟨version, hversion⟩ := hrunSound.version
    rw [executeClaimed_eq hheld (horg ▸ hversion)] at hok
    split at hok
    · obtain ⟨rfl, -⟩ := mk.inj (some.inj (ok.inj hok))
      exact h.write_run hrun (.failed run _ false) 0
    · rename_i mapped counted hmapped
      obtain ⟨rfl, -⟩ := mk.inj (some.inj (ok.inj hok))
      obtain ⟨rs, hleaves⟩ := mapRecords_leaves hmapped
      exact h.finished hleaves rfl rfl rfl (le_refl _) rfl h.runIds (fun r hr => .inl hr)
        hrunSound.drawn hrunSound.inputs ⟨version, hversion⟩ hsound

/-- One committed call keeps the invariant. -/
theorem Booked.step {call : Call} {reply : Unit} (hok : calls env db call = .ok (db', reply)) :
    Booked db' := by
  obtain ⟨now, request⟩ := call
  cases request with
  | mapping request =>
    cases request with
    | execute org payload print =>
      obtain ⟨⟨db₁, run⟩, hrun, heq⟩ := map_eq_ok.1 hok
      exact (mk.inj heq).1 ▸ h.execute hrun
    | executeClaimed claim =>
      obtain ⟨outcome, hrun, heq⟩ := map_eq_ok.1 hok
      refine (mk.inj heq).1 ▸ ?_
      cases outcome with
      | none => exact h
      | some p => exact h.executeClaimed hrun
    | reviewException org id decision actor =>
      obtain ⟨db₁, hreview, heq⟩ := map_eq_ok.1 hok
      exact (mk.inj heq).1 ▸ h.reviewException hreview
    | decideCandidate org id decision actor =>
      obtain ⟨db₁, hdecide, heq⟩ := map_eq_ok.1 hok
      exact (mk.inj heq).1 ▸ h.decideCandidate hdecide
  | submit org payload print =>
    obtain ⟨p, hsubmit, heq⟩ := map_eq_ok.1 hok
    exact (mk.inj heq).1 ▸ h.submit hsubmit
  | claimNext workerId =>
    refine (mk.inj (ok.inj hok)).1 ▸ ?_
    cases hclaim : Mapping.claimNext db [] workerId now with
    | none => exact h
    | some p => exact h.claimNext hclaim
  | claimRun org runId workerId =>
    obtain ⟨p, hclaim, heq⟩ := map_eq_ok.1 hok
    exact (mk.inj heq).1 ▸ h.claimRun hclaim
  | heartbeat claim => exact (mk.inj (ok.inj hok)).1 ▸ h.heartbeat claim now
  | recoverStale staleAfter limit =>
    exact (mk.inj (ok.inj hok)).1 ▸ h.recoverStale [] now staleAfter limit
  | failClaimed claim code retryable =>
    refine (mk.inj (ok.inj hok)).1 ▸ ?_
    cases hfail : Mapping.failClaimed db claim code retryable with
    | none => exact h
    | some db₁ => exact h.failClaimed hfail
  | fail org runId code retryable =>
    obtain ⟨db₁, hfail, heq⟩ := map_eq_ok.1 hok
    exact (mk.inj heq).1 ▸ h.failRun hfail
  | retry org runId key =>
    obtain ⟨p, hretry, heq⟩ := map_eq_ok.1 hok
    exact (mk.inj heq).1 ▸ h.retry hretry

end

/-- The tables before the first call, with any canonical store. -/
def Db.withoutRuns (db : Db) : Db := { db.withoutRecords with runs := [], inputs := [] }

theorem Booked.withoutRuns (db : Db) : Booked db.withoutRuns where
  sound := (Sound.withoutRecords db).of_same ⟨rfl, rfl, rfl, rfl, le_refl _⟩
  runIds := Unique.nil
  runs _ h := absurd h not_mem_nil
  inputDrawn _ h := absurd h not_mem_nil
  resultDrawn _ h := absurd h not_mem_nil

/-- Over all calls, every run that is carried out accounts for its records exactly when it takes
each of them in its turn. -/
theorem accountsForAll_iff (env : Env) (db : Db) (requests : List Call) :
    (calls env).AllSteps (AccountsForAll env) db.withoutRuns requests ↔
      (calls env).AllSteps (TakesAll env) db.withoutRuns requests := by
  constructor
  · refine Service.allSteps_of_invariant (Booked.withoutRuns db) (fun h _ hok => h.step hok) ?_
    exact fun h haccounts => (h.accounts_iff _).1 haccounts
  · refine Service.allSteps_of_invariant (Booked.withoutRuns db) (fun h _ hok => h.step hok) ?_
    exact fun h htakes => (h.accounts_iff _).2 htakes

end Calls

/-! ## A value that aborts its run -/

namespace AbortedRun

/-- A template that casts the field `amount` to a decimal. -/
def version : MappingTemplateVersion :=
  { SettledCandidate.version with
    fieldMappings := [{
      sourceFieldPath := "amount"
      field := ⟨"amount", none, []⟩
      isRequiredForPublication := true
      defaultValue := .null
      transformations := [⟨.typeCast, [("target_type", .str "decimal")]⟩] }] }

def db : Db :=
  { SettledCandidate.db with
    versions := [version]
    rawRecords := [⟨5, 9, 6⟩, ⟨10, 9, 6⟩] }

/-- One record misses the amount, and the amount of the other one is no number. -/
def payload : MappingRunCreate := ⟨6, 1, 7, "run", [⟨5, []⟩, ⟨10, [("amount", .str "abc")]⟩]⟩

/-- The parse failure of the second record escapes, and the result of the first one is discarded. -/
theorem not_accountsForAll : ¬ (calls Env.words).AllSteps (AccountsForAll Env.words) db.withoutRuns
    [⟨0, .mapping (.execute 9 payload "print")⟩] := by
  rintro ⟨haccounts, -⟩
  have hvalid : validateRequest db.withoutRuns 9 payload = .ok version := rfl
  have hstarts : Starts db.withoutRuns 9 payload version := ⟨rfl, hvalid, by decide, by decide⟩
  obtain ⟨db', run, hok, -⟩ := haccounts version hstarts
  have haborted : (execute Env.words db.withoutRuns 9 payload "print").isOk = false := by
    decide +kernel
  have hok : execute Env.words db.withoutRuns 9 payload "print" = .ok (db', run) := hok
  rw [hok] at haborted
  cases haborted

end AbortedRun

end Intel4Ops.Mapping

import Intel4Ops.Findings.Publisher

/-!
# The trust gate over a history of publications

A trust assessment starts with one arithmetic readiness decision, which is not ready. Each corrected
publication adds a ready row for the same assessment and level, and the readiness query may return
any of them. `Tracked` says what these rows are, and `gateRespected_iff` when the gate holds over a
whole run: exactly when no publishable request without a completeness result of its own is answered
with the row of an earlier correction.
-/

namespace Intel4Ops.Findings

open Lib List Table Except Option Prod

/-! ## The gate -/

/-- The readiness query returns a stored row of the request's assessment. -/
theorem readinessLookup_spec {db : Db} {request : GovernedFindingRequest} {answer : UUID}
    {r : AnalyticalReadinessDecision} (h : readinessLookup db request answer = some r) :
    r ∈ db.readinessDecisions ∧ r.Matches request.organizationId request.trustAssessmentId := by
  have hmem : r ∈ db.readinessDecisions.filter fun r =>
      r.Matches request.organizationId request.trustAssessmentId := by
    rw [readinessLookup, or_eq_some_iff] at h
    rcases h with hfind | ⟨-, hhead⟩
    · exact mem_of_find?_eq_some hfind
    · exact mem_of_mem_head? hhead
  simpa using hmem

/-- The two ways through the gate: a ready row, or a correction by the request's own
completeness. -/
theorem readinessGate_passed {db gated : Db} {call : PublishCall} {r : AnalyticalReadinessDecision}
    (h : readinessGate db call = .ok (some (gated, r))) :
    ∃ found, readinessLookup db call.request call.answer = some found ∧
      (found.readinessStatus.isReady = true ∧ r = found ∧ gated = db ∨
        found.readinessStatus.isReady = false ∧ call.request.CompletenessSatisfied ∧
          found.OnlyFieldCompleteness ∧ r = correctedReadiness call.request call.readinessId ∧
          (∀ row ∈ db.readinessDecisions, row.id ≠ call.readinessId) ∧
          gated = { db with readinessDecisions := db.readinessDecisions ++ [r] }) := by
  unfold readinessGate at h
  split at h
  · exact absurd h (by simp)
  · rename_i found hfound
    refine ⟨found, hfound, ?_⟩
    split at h
    · rename_i hready
      simp only [ok.injEq, some.injEq, mk.injEq] at h
      exact .inl ⟨hready, h.2.symm, h.1.symm⟩
    · rename_i hready
      split at h
      · rename_i hcorrected
        simp only at h
        split at h
        · exact absurd h (by simp)
        · rename_i rows hrows
          obtain ⟨hfresh, rfl⟩ := insert_eq_some.1 hrows
          simp only [ok.injEq, some.injEq, mk.injEq] at h
          refine .inr ⟨by simpa using hready, hcorrected.1, hcorrected.2, h.2.symm, hfresh, ?_⟩
          rw [← h.1, ← h.2]
      · exact absurd h (by simp)

/-! ## What follows the gate leaves the readiness decisions alone -/

theorem recordExecution_eq {db recorded : Db} {execution : IntelligenceExecution}
    (h : recordExecution db execution = .ok recorded) :
    recorded = { db with executions := db.executions ++ [execution] } ∧
      ∀ e ∈ db.executions, e.id ≠ execution.id := by
  simp only [recordExecution, bind_eq_ok, ensure_eq_ok, orFail_eq_ok, insert_eq_some,
    pure_eq_ok] at h
  obtain ⟨-, -, -, -, -, -, -, -, executions, ⟨hfresh, hrows⟩, hdb⟩ := h
  exact ⟨by rw [← hdb, hrows], hfresh⟩

theorem findOrAdd_readiness {db db' : Db} {finding found : Finding}
    (h : findOrAdd db finding = .ok (db', found)) :
    db'.readinessDecisions = db.readinessDecisions := by
  unfold findOrAdd at h
  split at h
  · simp only [ok.injEq, mk.injEq] at h
    rw [← h.1]
  · simp only [bind_eq_ok, orFail_eq_ok, pure_eq_ok, mk.injEq] at h
    obtain ⟨findings, -, rfl, -⟩ := h
    rfl

theorem publishCandidateFinding_readiness {env : Env} {db published : Db} {org id : UUID}
    {payload : CandidateFindingCreate} {finding : Finding}
    (h : publishCandidateFinding env db org payload id = .ok (published, finding)) :
    published.readinessDecisions = db.readinessDecisions := by
  simp only [publishCandidateFinding, bind_eq_ok] at h
  obtain ⟨_, -, execution, -, _, -, _, -, _, -, _, -, key, -, h⟩ := h
  exact findOrAdd_readiness h

theorem afterError_readiness {db session : Db} (e : PublishError)
    {rows : List AnalyticalReadinessDecision} (h : session.readinessDecisions = rows) :
    (afterError db session e).readinessDecisions = db.readinessDecisions ∨
      (afterError db session e).readinessDecisions = rows := by
  cases e with
  | platform code message | integrity => exact .inl rfl
  | validation message | unorderable => exact .inr h

theorem publishUnder_readiness (env : Env) (db gated : Db) (call : PublishCall) (id : UUID) :
    (publishUnder env db gated call id).session.readinessDecisions = db.readinessDecisions ∨
      (publishUnder env db gated call id).session.readinessDecisions =
        gated.readinessDecisions := by
  unfold publishUnder
  simp only
  split
  · exact .inl rfl
  · rename_i recorded hrecorded
    have hrows : recorded.readinessDecisions = gated.readinessDecisions := by
      rw [(recordExecution_eq hrecorded).1]
    split
    · exact .inr hrows
    · split
      · exact afterError_readiness _ hrows
      · rename_i published finding hpublished
        exact .inr ((publishCandidateFinding_readiness hpublished).trans hrows)

theorem publish_readiness (env : Env) (db : Db) (call : PublishCall) :
    (publish env db call).session.readinessDecisions = db.readinessDecisions ∨
      ∃ found, readinessLookup db call.request call.answer = some found ∧
        found.readinessStatus.isReady = false ∧ found.OnlyFieldCompleteness ∧
        (∀ row ∈ db.readinessDecisions, row.id ≠ call.readinessId) ∧
        (publish env db call).session.readinessDecisions =
          db.readinessDecisions ++ [correctedReadiness call.request call.readinessId] := by
  unfold publish
  split
  · exact .inl rfl
  · exact .inl rfl
  · rename_i gated r hgate
    obtain ⟨found, hfound, hway⟩ := readinessGate_passed hgate
    rcases publishUnder_readiness env db gated call r.id with hsame | hgated
    · exact .inl hsame
    · rcases hway with ⟨-, -, rfl⟩ | ⟨hblocked, -, honly, rfl, hfresh, rfl⟩
      · exact .inl hgated
      · exact .inr ⟨found, hfound, hblocked, honly, hfresh, hgated⟩

/-! ## The rows of a blocked assessment -/

/-- `original` is the one arithmetic decision of its assessment in the tables, and it is not
ready. -/
structure Blocked (original : AnalyticalReadinessDecision) (db : Db) : Prop where
  arithmetic : original.analyticalLevel = .arithmetic
  stored : original ∈ db.readinessDecisions
  only : ∀ r ∈ db.readinessDecisions,
    r.Matches original.organizationId original.trustAssessmentId → r = original
  blocked : original.readinessStatus.isReady = false

/-- The rows of the assessment are the original decision and ready rows beside it, which are there
only if the original decision lacks nothing but field completeness. -/
structure Tracked (original : AnalyticalReadinessDecision) (db : Db) : Prop where
  stored : original ∈ db.readinessDecisions
  rows : ∀ r ∈ db.readinessDecisions,
    r.Matches original.organizationId original.trustAssessmentId →
      r = original ∨
        r.id ≠ original.id ∧ r.readinessStatus.isReady = true ∧ original.OnlyFieldCompleteness

theorem Blocked.tracked {original : AnalyticalReadinessDecision} {db : Db}
    (h : Blocked original db) : Tracked original db where
  stored := h.stored
  rows r hr hmatch := .inl (h.only r hr hmatch)

section Run

variable {env : Env} {original : AnalyticalReadinessDecision} {db : Db} {call : PublishCall}

/-- The call is for the original decision's assessment. -/
def PublishCall.About (call : PublishCall) (original : AnalyticalReadinessDecision) : Prop :=
  call.request.organizationId = original.organizationId ∧
    call.request.trustAssessmentId = original.trustAssessmentId

variable {db' : Db}

section

variable (h : Tracked original db)
include h

theorem Tracked.of_readiness (hsame : db'.readinessDecisions = db.readinessDecisions) :
    Tracked original db' where
  stored := hsame ▸ h.stored
  rows := hsame ▸ h.rows

theorem Tracked.eq_original (habout : call.About original) {found : AnalyticalReadinessDecision}
    (hfound : readinessLookup db call.request call.answer = some found)
    (hready : found.readinessStatus.isReady = false) : found = original := by
  obtain ⟨hmem, hmatch⟩ := readinessLookup_spec hfound
  rw [habout.1, habout.2] at hmatch
  rcases h.rows found hmem hmatch with heq | ⟨-, hisReady, -⟩
  · exact heq
  · exact absurd hisReady (by simp [hready])

/-- Adding the row of a correction keeps the rows tracked. -/
theorem Tracked.corrected {found : AnalyticalReadinessDecision}
    (hfound : readinessLookup db call.request call.answer = some found)
    (hready : found.readinessStatus.isReady = false) (honly : found.OnlyFieldCompleteness)
    (hfresh : ∀ row ∈ db.readinessDecisions, row.id ≠ call.readinessId)
    (hrows : db'.readinessDecisions =
      db.readinessDecisions ++ [correctedReadiness call.request call.readinessId]) :
    Tracked original db' where
  stored := by
    rw [hrows]
    exact mem_append_left _ h.stored
  rows r hr hmatch := by
    rw [hrows, mem_append, mem_singleton] at hr
    rcases hr with hr | rfl
    · exact h.rows r hr hmatch
    · -- The new row counts for the assessment only if the corrected request was about it.
      have habout : call.About original := ⟨hmatch.1, hmatch.2.1⟩
      have heq : found = original := h.eq_original habout hfound hready
      exact .inr ⟨fun hid => hfresh original h.stored hid.symm, rfl, heq ▸ honly⟩

/-- The session of every call, returned or raised, keeps the rows tracked. -/
theorem Tracked.session : Tracked original (publish env db call).session := by
  rcases publish_readiness env db call with hsame | ⟨found, hfound, hready, honly, hfresh, hrows⟩
  · exact h.of_readiness hsame
  · exact h.corrected hfound hready honly hfresh hrows

end

theorem service_ok {reply : Option Finding} (h : service env db call = .ok (db', reply)) :
    db' = (publish env db call).session := by
  unfold service at h
  split at h
  · rename_i heq
    simp only [ok.injEq, mk.injEq] at h
    rw [heq, ← h.1, Outcome.session]
  · rename_i heq
    split at h
    · simp only [ok.injEq, mk.injEq] at h
      rw [heq, ← h.1, Outcome.session]
    · cases h

theorem Tracked.step {reply : Option Finding} (h : Tracked original db)
    (hok : service env db call = .ok (db', reply)) : Tracked original db' := by
  rw [service_ok hok]
  exact h.session

end Run

/-! ## What a call has to bring besides readiness -/

/-- The call publishes: it returns a finding. -/
def Publishes (env : Env) (db : Db) (call : PublishCall) : Prop :=
  (publish env db call).reply.isSome = true

instance (env : Env) (db : Db) (call : PublishCall) : Decidable (Publishes env db call) :=
  inferInstanceAs (Decidable (_ = _))

theorem publishes_iff {env : Env} {db : Db} {call : PublishCall} :
    Publishes env db call ↔ ∃ db' finding, publish env db call = .returned db' (some finding) := by
  rw [Publishes]
  cases h : publish env db call with
  | returned db' finding =>
    rw [Outcome.reply, isSome_iff_exists]
    constructor
    · rintro ⟨f, rfl⟩
      exact ⟨db', f, rfl⟩
    · rintro ⟨_, f, heq⟩
      exact ⟨f, (Outcome.returned.inj heq).2⟩
  | raised e session => simp [Outcome.reply]

/-- The finding platform takes the candidate: its currency is normalized, its evidence is stored,
its key can be computed, and the key is known or the identifier of the finding is not. -/
structure Accepts (env : Env) (db : Db) (call : PublishCall) (payload : CandidateFindingCreate) :
    Prop where
  currency : payload.exposureCurrency = call.request.exposureCurrency
  evidence : ∀ item ∈ payload.evidence, ∀ reference ∈ item.references,
    ⟨reference.1, reference.2, call.request.organizationId⟩ ∈ db.evidenceRows
  storable : ∃ key, deduplicationKey env call.request.organizationId
      (newExecution call.request call.readinessId call.executionId) payload = .ok key ∧
    ((∃ f ∈ db.findings, f.organizationId = call.request.organizationId ∧
        f.deduplicationKey = key) ∨
      ∀ f ∈ db.findings, f.id ≠ call.findingId)

/-- Everything but readiness that publication asks of a call and of the tables. -/
structure Publishable (env : Env) (db : Db) (call : PublishCall) : Prop where
  executionFresh : ∀ e ∈ db.executions, e.id ≠ call.executionId
  organization : ∃ o ∈ db.organizations, o.id = call.request.organizationId ∧ o.active = true
  rule : env.rule call.request.definitionCode call.request.definitionVersion = some true
  assessment : ∃ a ∈ db.trustAssessments, a.id = call.request.trustAssessmentId ∧
    a.organizationId = call.request.organizationId ∧ a.status.isCompleted = true
  dataset : ∃ d ∈ db.evidenceRows, d.model = .dataset ∧ d.id = call.request.primaryDatasetId ∧
    d.organizationId = call.request.organizationId
  candidate : ∃ payload, candidate env call.request call.executionId = .ok payload ∧
    Accepts env db call payload

section Publishable

variable {env : Env} {db : Db} {call : PublishCall} {payload : CandidateFindingCreate}

theorem candidate_fields {request : GovernedFindingRequest} {id : UUID}
    (h : candidate env request id = .ok payload) :
    0 ≤ request.affectedRecordCount ∧ payload.executionId = id ∧ payload.resultId = id ∧
      payload.measuredValue = request.affectedRecordCount ∧ payload.measuredUnit = none ∧
      payload.measuredCurrency = none ∧ payload.exposureValue = request.exposureValue := by
  simp only [candidate, bind_eq_ok, ensure_eq_ok, pure_eq_ok] at h
  obtain ⟨evidence, -, _, -, _, -, _, -, _, -, currency, -, _, hcount, _, -, _, -, _, -, rfl⟩ := h
  exact ⟨hcount, rfl, rfl, rfl, rfl, rfl, rfl⟩

theorem recordExecution_isOk {execution : IntelligenceExecution} :
    (∃ recorded, recordExecution db execution = .ok recorded) ↔
      (0 ≤ execution.affectedRecordCount ∧
        execution.affectedRecordCount ≤ execution.checkedRecordCount) ∧
      (∃ o ∈ db.organizations, o.id = execution.organizationId) ∧
      (∃ r ∈ db.evidenceRows, r.model = .dataset ∧ r.id = execution.datasetId) ∧
      (∃ a ∈ db.trustAssessments, a.id = execution.trustAssessmentId) ∧
      ∀ e ∈ db.executions, e.id ≠ execution.id := by
  simp only [recordExecution, bind_eq_ok, ensure_eq_ok, orFail_eq_ok, insert_eq_some, pure_eq_ok]
  constructor
  · rintro ⟨-, -, hcount, -, horg, -, hdataset, -, hassessment, -, ⟨hfresh, -⟩, -⟩
    exact ⟨hcount, horg, hdataset, hassessment, hfresh⟩
  · rintro ⟨hcount, horg, hdataset, hassessment, hfresh⟩
    exact ⟨_, (), hcount, (), horg, (), hdataset, (), hassessment, _, ⟨hfresh, rfl⟩, rfl⟩

theorem findOrAdd_isOk {finding : Finding} : (∃ r, findOrAdd db finding = .ok r) ↔
      (∃ f ∈ db.findings, f.organizationId = finding.organizationId ∧
        f.deduplicationKey = finding.deduplicationKey) ∨
      ∀ f ∈ db.findings, f.id ≠ finding.id := by
  unfold findOrAdd
  split
  · rename_i existing hfind
    refine iff_of_true ⟨_, rfl⟩ (.inl ⟨existing, ?_⟩)
    exact find?_spec hfind
  · rename_i hnone
    simp only [List.find?_eq_none, decide_eq_true_eq] at hnone
    simp only [bind_eq_ok, orFail_eq_ok, insert_eq_some, pure_eq_ok, not_or]
    constructor
    · rintro ⟨-, -, ⟨hfree, -⟩, -⟩
      exact .inr fun f hf => (hfree f hf).1
    · rintro (⟨f, hf, hkey⟩ | hfresh)
      · exact absurd hkey (hnone f hf)
      · exact ⟨_, _, ⟨fun f hf => ⟨hfresh f hf, hnone f hf⟩, rfl⟩, rfl⟩

theorem eligibleExecution_recorded {execution : IntelligenceExecution}
    (hfresh : ∀ e ∈ db.executions, e.id ≠ execution.id) :
    eligibleExecution { db with executions := db.executions ++ [execution] }
      execution.organizationId execution.id = .ok execution := by
  have hold : db.executions.find? (fun e => decide (e.id = execution.id ∧
      e.organizationId = execution.organizationId)) = none := by
    simp only [List.find?_eq_none, decide_eq_true_eq, not_and]
    exact fun e he hid => absurd hid (hfresh e he)
  rw [eligibleExecution, List.find?_append, hold, none_or, List.find?_singleton,
    if_pos (by simp)]
  rfl

/-- The finding platform takes a candidate when each of its checks does and the finding can be
stored. -/
theorem publishCandidateFinding_isOk {org id : UUID} :
    (∃ r, publishCandidateFinding env db org payload id = .ok r) ↔
      (∃ o ∈ db.organizations, o.id = org ∧ o.active = true) ∧
      ∃ execution, eligibleExecution db org payload.executionId = .ok execution ∧
        definitionActive env execution = .ok () ∧
        validateExecutionContract db org execution payload = .ok () ∧
        validateMeasurement execution payload = .ok () ∧
        validateEvidenceReferences db org payload.evidence = .ok () ∧
        ∃ key, deduplicationKey env org execution payload = .ok key ∧
          ((∃ f ∈ db.findings, f.organizationId = org ∧ f.deduplicationKey = key) ∨
            ∀ f ∈ db.findings, f.id ≠ id) := by
  simp only [publishCandidateFinding, bind_eq_ok, ensure_eq_ok]
  constructor
  · rintro ⟨r, _, horg, execution, heligible, _, hrule, _, hcontract, _, hmeasure, _, hevidence,
      key, hkey, hstored⟩
    exact ⟨horg, execution, heligible, hrule, hcontract, hmeasure, hevidence, key, hkey,
      findOrAdd_isOk.1 ⟨r, hstored⟩⟩
  · rintro ⟨horg, execution, heligible, hrule, hcontract, hmeasure, hevidence, key, hkey, hstorable⟩
    obtain ⟨r, hstored⟩ : ∃ r, findOrAdd db (newFinding execution payload org id key) = .ok r :=
      findOrAdd_isOk.2 hstorable
    exact ⟨r, (), horg, execution, heligible, (), hrule, (), hcontract, (), hmeasure, (),
      hevidence, key, hkey, hstored⟩

variable {r : AnalyticalReadinessDecision}

theorem validateExecutionContract_isOk (hr : r ∈ db.readinessDecisions)
    (hmatch : r.Matches call.request.organizationId call.request.trustAssessmentId)
    (hready : r.readinessStatus.isReady = true) (hresult : payload.resultId = call.executionId) :
    validateExecutionContract db call.request.organizationId
        (newExecution call.request r.id call.executionId) payload = .ok () ↔
      (∃ a ∈ db.trustAssessments, a.id = call.request.trustAssessmentId ∧
        a.organizationId = call.request.organizationId ∧ a.status.isCompleted = true) ∧
      ∃ d ∈ db.evidenceRows, d.model = .dataset ∧ d.id = call.request.primaryDatasetId ∧
        d.organizationId = call.request.organizationId := by
  simp only [validateExecutionContract, bind_eq_ok, ensure_eq_ok]
  constructor
  · rintro ⟨-, -, -, hassessment, -, -, hdataset⟩
    exact ⟨hassessment, hdataset⟩
  · rintro ⟨hassessment, hdataset⟩
    exact ⟨(), hresult, (), hassessment, (), ⟨r, hr, rfl, hmatch.1, hmatch.2.1, hready⟩, hdataset⟩

theorem definitionActive_isOk {execution : IntelligenceExecution} :
    definitionActive env execution = .ok () ↔
      env.rule execution.definitionCode execution.definitionVersion = some true := by
  simp only [definitionActive, bind_eq_ok, orFail_eq_ok, ensure_eq_ok]
  constructor
  · rintro ⟨active, hactive, rfl⟩
    exact hactive
  · intro hactive
    exact ⟨true, hactive, rfl⟩

/-- Of the measurement only the currency can differ, where normalization changed it. -/
theorem validateMeasurement_isOk {readinessId : UUID}
    (hpayload : candidate env call.request call.executionId = .ok payload) :
    validateMeasurement (newExecution call.request readinessId call.executionId) payload = .ok () ↔
      payload.exposureCurrency = call.request.exposureCurrency := by
  obtain ⟨-, -, -, hvalue, hunit, hcurrency, hexposure⟩ := candidate_fields hpayload
  simp only [validateMeasurement, bind_eq_ok, ensure_eq_ok]
  constructor
  · rintro ⟨-, -, -, -, -, -, -, -, hcurrency⟩
    exact hcurrency
  · intro h
    exact ⟨(), hvalue, (), hunit, (), hcurrency, (), hexposure, h⟩

theorem publishCandidateFinding_recorded (hr : r ∈ db.readinessDecisions)
    (hmatch : r.Matches call.request.organizationId call.request.trustAssessmentId)
    (hready : r.readinessStatus.isReady = true)
    (hfresh : ∀ e ∈ db.executions, e.id ≠ call.executionId)
    (hpayload : candidate env call.request call.executionId = .ok payload) :
    (∃ x, publishCandidateFinding env { db with executions := db.executions ++
        [newExecution call.request r.id call.executionId] }
        call.request.organizationId payload call.findingId = .ok x) ↔
      (∃ o ∈ db.organizations, o.id = call.request.organizationId ∧ o.active = true) ∧
      env.rule call.request.definitionCode call.request.definitionVersion = some true ∧
      (∃ a ∈ db.trustAssessments, a.id = call.request.trustAssessmentId ∧
        a.organizationId = call.request.organizationId ∧ a.status.isCompleted = true) ∧
      (∃ d ∈ db.evidenceRows, d.model = .dataset ∧ d.id = call.request.primaryDatasetId ∧
        d.organizationId = call.request.organizationId) ∧
      Accepts env db call payload := by
  obtain ⟨-, hid, hresult, -⟩ := candidate_fields hpayload
  have hown : eligibleExecution { db with executions := db.executions ++
      [newExecution call.request r.id call.executionId] } call.request.organizationId
      payload.executionId = .ok (newExecution call.request r.id call.executionId) := by
    rw [hid]
    exact eligibleExecution_recorded hfresh
  rw [publishCandidateFinding_isOk]
  constructor
  · rintro ⟨horg, execution, heligible, hrule, hcontract, hmeasure, hevidence, key, hkey, hstorable⟩
    obtain rfl : newExecution call.request r.id call.executionId = execution :=
      ok.inj (hown.symm.trans heligible)
    obtain ⟨hassessment, hdataset⟩ :=
      (validateExecutionContract_isOk hr hmatch hready hresult).1 hcontract
    refine ⟨horg, definitionActive_isOk.1 hrule, hassessment, hdataset, ?_⟩
    exact ⟨(validateMeasurement_isOk hpayload).1 hmeasure, ensure_eq_ok.1 hevidence,
      key, hkey, hstorable⟩
  · rintro ⟨horg, hrule, hassessment, hdataset, hcurrency, hevidence, key, hkey, hstorable⟩
    refine ⟨horg, _, hown, definitionActive_isOk.2 hrule, ?_, ?_, ensure_eq_ok.2 hevidence,
      key, hkey, hstorable⟩
    · exact (validateExecutionContract_isOk hr hmatch hready hresult).2 ⟨hassessment, hdataset⟩
    · exact (validateMeasurement_isOk hpayload).2 hcurrency

/-- Behind the gate a call under a stored ready decision publishes exactly when it is
publishable. -/
theorem publishUnder_iff (hr : r ∈ db.readinessDecisions)
    (hmatch : r.Matches call.request.organizationId call.request.trustAssessmentId)
    (hready : r.readinessStatus.isReady = true) :
    (∃ db' finding, publishUnder env db db call r.id = .returned db' (some finding)) ↔
      Publishable env db call := by
  constructor
  · rintro ⟨db', finding, h⟩
    unfold publishUnder at h
    simp only at h
    split at h
    · cases h
    · rename_i recorded hrecorded
      split at h
      · cases h
      · rename_i payload hpayload
        split at h
        · cases h
        · rename_i published found hpublished
          obtain ⟨rfl, hfresh⟩ := recordExecution_eq hrecorded
          obtain ⟨horg, hrule, hassessment, hdataset, haccepts⟩ :=
            (publishCandidateFinding_recorded hr hmatch hready hfresh hpayload).1 ⟨_, hpublished⟩
          exact ⟨hfresh, horg, hrule, hassessment, hdataset, payload, hpayload, haccepts⟩
  · rintro ⟨hfresh, horg, hrule, hassessment, hdataset, payload, hpayload, haccepts⟩
    obtain ⟨recorded, hrecorded⟩ : ∃ recorded, recordExecution db
        (newExecution call.request r.id call.executionId) = .ok recorded := by
      refine recordExecution_isOk.2 ⟨⟨(candidate_fields hpayload).1, ?_⟩, ?_, ?_, ?_, hfresh⟩
      · exact le_max_left _ _
      · exact horg.imp fun o ho => ⟨ho.1, ho.2.1⟩
      · exact hdataset.imp fun d hd => ⟨hd.1, hd.2.1, hd.2.2.1⟩
      · exact hassessment.imp fun a ha => ⟨ha.1, ha.2.1⟩
    obtain ⟨rfl, -⟩ := recordExecution_eq hrecorded
    obtain ⟨⟨published, found⟩, hpublished⟩ :=
      (publishCandidateFinding_recorded hr hmatch hready hfresh hpayload).2
        ⟨horg, hrule, hassessment, hdataset, haccepts⟩
    refine ⟨(attach published call.request found).1, (attach published call.request found).2, ?_⟩
    have hid : (newExecution call.request r.id call.executionId).id = call.executionId := rfl
    simp only [publishUnder, hrecorded, hid, hpayload, hpublished]

end Publishable

/-! ## The gate over a run -/

/-- What publication about a blocked assessment needs: a satisfied completeness result of the
request's own, and an original decision that lacks nothing but field completeness. -/
def Entitled (original : AnalyticalReadinessDecision) (request : GovernedFindingRequest) : Prop :=
  request.CompletenessSatisfied ∧ original.OnlyFieldCompleteness

/-- The gate holds for a call: about the assessment it publishes only what is entitled to it. -/
def GateRespected (env : Env) (original : AnalyticalReadinessDecision) (db : Db)
    (call : PublishCall) : Prop :=
  call.About original → Publishes env db call → Entitled original call.request

/-- A publishable call without a satisfied completeness result of its own, which the readiness query
answers with another row than the original decision. -/
structure BorrowsCorrection (env : Env) (original : AnalyticalReadinessDecision) (db : Db)
    (call : PublishCall) : Prop where
  about : call.About original
  own : ¬ call.request.CompletenessSatisfied
  answered : ∃ r, readinessLookup db call.request call.answer = some r ∧ r.id ≠ original.id
  publishable : Publishable env db call

section Gate

variable {env : Env} {original : AnalyticalReadinessDecision} {db : Db} {call : PublishCall}

theorem Tracked.respects_iff (h : Tracked original db)
    (hblocked : original.readinessStatus.isReady = false) :
    GateRespected env original db call ↔ ¬ BorrowsCorrection env original db call := by
  constructor
  · rintro hgate ⟨habout, hown, ⟨r, hlookup, hne⟩, hpublishable⟩
    obtain ⟨hmem, hmatch⟩ := readinessLookup_spec hlookup
    rcases h.rows r hmem (habout.1 ▸ habout.2 ▸ hmatch) with rfl | ⟨-, hready, -⟩
    · exact hne rfl
    · refine hown (hgate habout ?_).1
      obtain ⟨db', finding, hpublished⟩ := (publishUnder_iff hmem hmatch hready).2 hpublishable
      refine publishes_iff.2 ⟨db', finding, ?_⟩
      simp only [publish, readinessGate, hlookup, hready, if_true, hpublished]
  · intro hborrow habout hpublishes
    obtain ⟨db', finding, hpublished⟩ := publishes_iff.1 hpublishes
    unfold publish at hpublished
    split at hpublished
    · cases hpublished
    · cases hpublished
    · rename_i gated r hgate
      obtain ⟨found, hlookup, hway⟩ := readinessGate_passed hgate
      obtain ⟨hmem, hmatch⟩ := readinessLookup_spec hlookup
      rcases hway with ⟨hready, rfl, rfl⟩ | ⟨hready, hown, honly, -⟩
      · -- A ready row is the row of an earlier correction, so only the request's own
        -- completeness is in question.
        rcases h.rows r hmem (habout.1 ▸ habout.2 ▸ hmatch) with rfl | ⟨hne, -, honly⟩
        · exact absurd hready (by simp [hblocked])
        · refine ⟨by_contra fun hown => hborrow ?_, honly⟩
          exact ⟨habout, hown, ⟨r, hlookup, hne⟩,
            (publishUnder_iff hmem hmatch hready).1 ⟨db', finding, hpublished⟩⟩
      · exact ⟨hown, h.eq_original habout hlookup hready ▸ honly⟩

/-- Over every run of publications the gate of a blocked assessment holds for every call exactly
when no call of the run borrows the correction of an earlier one. -/
theorem gateRespected_iff (hblocked : Blocked original db) (calls : List PublishCall) :
    (service env).AllSteps (GateRespected env original) db calls ↔
      (service env).AllSteps (fun db call => ¬ BorrowsCorrection env original db call) db
        calls := by
  constructor
  · refine Service.allSteps_of_invariant hblocked.tracked (fun h _ hok => h.step hok) ?_
    exact fun h hgate => (h.respects_iff hblocked.blocked).1 hgate
  · refine Service.allSteps_of_invariant hblocked.tracked (fun h _ hok => h.step hok) ?_
    exact fun h hborrow => (h.respects_iff hblocked.blocked).2 hborrow

end Gate

/-! ## A borrowed correction -/

namespace Borrowed

def env : Env where
  strip s := s
  upper s := s
  rule _ _ := some true
  digest content := content.definitionCode

/-- The decision of an assessment whose raw columns miss a required field. -/
def original : AnalyticalReadinessDecision where
  id := 3
  organizationId := 1
  trustAssessmentId := 2
  analyticalLevel := .arithmetic
  readinessStatus := .blocked
  blockingRuleCodes := [requiredFieldCompleteness]
  warningRuleCodes := []

def db : Db where
  organizations := [⟨1, true⟩]
  trustAssessments := [⟨2, 1, .completed⟩]
  readinessDecisions := [original]
  evidenceRows := [⟨.dataset, 4, 1⟩]
  executions := []
  findings := []
  findingSourceDatasets := []

def request (code : String) (completeness : Option CanonicalEvidenceCompletenessResult) :
    GovernedFindingRequest where
  organizationId := 1
  primaryDatasetId := 4
  trustAssessmentId := 2
  definitionCode := code
  definitionVersion := "1.0"
  ruleConditionCode := "repeat_visits"
  affectedRecordCount := 3
  title := "Repeat visits"
  summary := "Three repeat visits"
  domainCode := "maintenance"
  severity := .medium
  findingType := .exception
  canonicalEvidenceCompleteness := completeness

/-- A capability whose own canonical evidence is complete. -/
def corrected : PublishCall where
  request := request "repeat_visit" (some ⟨true, []⟩)
  answer := 3
  readinessId := 10
  executionId := 11
  findingId := 12
  committedByCaller := false

/-- Another capability, which has no completeness result; the query returns the row that the first
one added. -/
def borrowing : PublishCall where
  request := request "schedule_completion" none
  answer := 10
  readinessId := 20
  executionId := 21
  findingId := 22
  committedByCaller := false

theorem blocked : Blocked original db where
  arithmetic := rfl
  stored := mem_singleton_self _
  only _ hr _ := mem_singleton.1 hr
  blocked := rfl

theorem gateRespected_iff_corrected :
    (service env).AllSteps (GateRespected env original) db [corrected] ↔
      (service env).AllSteps (fun db call => ¬ BorrowsCorrection env original db call) db
        [corrected] :=
  gateRespected_iff blocked [corrected]

/-- The second capability publishes on the correction of the first. -/
theorem not_gateRespected :
    ¬ (service env).AllSteps (GateRespected env original) db [corrected, borrowing] := by
  rintro ⟨-, hgate, -⟩
  have hpublishes : Publishes env ((service env).next db corrected) borrowing := by
    decide +kernel
  have hown : ¬ borrowing.request.CompletenessSatisfied := by decide
  exact hown (hgate ⟨rfl, rfl⟩ hpublishes).1

end Borrowed

end Intel4Ops.Findings

import Intel4Ops.Findings.TrustGate

/-!
# Republication

A request whose deduplication content was published before is answered with the stored finding. The
content covers the measured count and the affected references; the exposure, the severity, the
condition and the roles of the identity references are no part of it, so a finding can answer for
values that are not its own.
-/

namespace Intel4Ops.Findings

open Lib List

/-! ## Answers -/

/-- An answered request with its finding. -/
structure Answer where
  request : GovernedFindingRequest
  finding : Finding

def PublishCall.answered (env : Env) (db : Db) (call : PublishCall) : List Answer :=
  ((publish env db call).reply.map fun finding => ⟨call.request, finding⟩).toList

/-- The answered requests of a history, in its order. -/
def answers (env : Env) : Db → List PublishCall → List Answer
  | _, [] => []
  | db, call :: calls =>
    call.answered env db ++ answers env ((service env).next db call) calls

/-- The finding carries the values of the request. -/
structure Finding.Carries (finding : Finding) (request : GovernedFindingRequest) : Prop where
  affectedRecordCount : finding.affectedRecordCount = request.affectedRecordCount
  exposureValue : finding.exposureValue = request.exposureValue
  exposureCurrency : finding.exposureCurrency = request.exposureCurrency
  severity : finding.severity = request.severity
  condition : finding.severityBasis = request.ruleConditionCode

/-- The requests are about the same subject under the same condition. -/
structure SameSubject (env : Env) (a b : GovernedFindingRequest) : Prop where
  definitionCode : a.definitionCode = b.definitionCode
  definitionVersion : a.definitionVersion = b.definitionVersion
  findingType : a.findingType = b.findingType
  primaryDatasetId : a.primaryDatasetId = b.primaryDatasetId
  identity : identityEvidenceItems env a.identityReferences =
    identityEvidenceItems env b.identityReferences
  condition : a.ruleConditionCode = b.ruleConditionCode

/-- Over a history every answer carries the values of its request, and one finding answers only
requests about one subject. -/
structure Current (env : Env) (db : Db) (calls : List PublishCall) : Prop where
  carries : ∀ a ∈ answers env db calls, a.finding.Carries a.request
  apart : ∀ a ∈ answers env db calls, ∀ b ∈ answers env db calls,
    a.finding.id = b.finding.id → SameSubject env a.request b.request

/-! ## What the key is computed from -/

def affectedReferences (evidence : List EvidenceItemCreate) :
    List (String × Option String × Option String) :=
  ((evidence.filter fun item => item.evidenceType = .affectedRecord).map
    fun item => (item.referenceType, item.referenceId, item.canonicalRecordReference)).insertionSort
    fun a b => a.1 < b.1 ∨ a.1 = b.1 ∧
      pairLe (a.2.1.getD "", a.2.2.getD "") (b.2.1.getD "", b.2.2.getD "")

def deduplicationContent (env : Env) (request : GovernedFindingRequest) :
    Except PublishError DeduplicationContent := do
  let evidence ← requestEvidence env request
  return {
    organizationId := request.organizationId
    definitionCode := request.definitionCode
    definitionVersion := request.definitionVersion
    findingType := request.findingType
    datasetReference := request.primaryDatasetId
    affectedReferences := affectedReferences evidence
    measuredValueType := .count
    measuredValue := request.affectedRecordCount
    measuredUnit := none
    measuredCurrency := none }

/-- The digest tells the contents of the requests apart. -/
def CollisionFree (env : Env) (requests : List GovernedFindingRequest) : Prop :=
  ∀ a ∈ requests, ∀ b ∈ requests, ∀ c c', deduplicationContent env a = .ok c →
    deduplicationContent env b = .ok c' → env.digest c = env.digest c' → c = c'

/-- Answered requests with one content agree on everything that their findings are asked for and the
content leaves out. -/
def Settled (env : Env) (answered : List Answer) : Prop :=
  ∀ a ∈ answered, ∀ b ∈ answered,
    deduplicationContent env a.request = deduplicationContent env b.request →
      a.request.exposureValue = b.request.exposureValue ∧
      a.request.exposureCurrency = b.request.exposureCurrency ∧
      a.request.severity = b.request.severity ∧
      a.request.ruleConditionCode = b.request.ruleConditionCode ∧
      identityEvidenceItems env a.request.identityReferences =
        identityEvidenceItems env b.request.identityReferences

section

variable {env : Env} {db : Db} {call : PublishCall} {payload : CandidateFindingCreate}

theorem candidate_eq {request : GovernedFindingRequest} {id : UUID}
    (h : candidate env request id = .ok payload) :
    requestEvidence env request = .ok payload.evidence ∧
      payload.findingType = request.findingType ∧
      payload.datasetReference = request.primaryDatasetId ∧
      payload.measuredValueType = .count ∧ payload.severity = request.severity ∧
      payload.severityBasis = request.ruleConditionCode ∧
      payload.affectedRecordCount = request.affectedRecordCount := by
  simp only [candidate, bind_eq_ok, ensure_eq_ok, pure_eq_ok] at h
  obtain ⟨evidence, hevidence, _, -, _, -, _, -, _, -, currency, -, _, -, _, -, _, -, _, -, rfl⟩ :=
    h
  exact ⟨hevidence, rfl, rfl, rfl, rfl, rfl, rfl⟩

theorem deduplicationKey_eq {readinessId : UUID} {key : String}
    (hpayload : candidate env call.request call.executionId = .ok payload)
    (hkey : deduplicationKey env call.request.organizationId
      (newExecution call.request readinessId call.executionId) payload = .ok key) :
    ∃ content, deduplicationContent env call.request = .ok content ∧ key = env.digest content := by
  obtain ⟨-, -, -, hvalue, hunit, hcurrency, -⟩ := candidate_fields hpayload
  obtain ⟨hevidence, htype, hdataset, hvalueType, -⟩ := candidate_eq hpayload
  simp only [deduplicationKey, bind_eq_ok, ensure_eq_ok, pure_eq_ok] at hkey
  obtain ⟨-, -, rfl⟩ := hkey
  refine ⟨_, by rw [deduplicationContent, hevidence]; rfl, ?_⟩
  rw [htype, hdataset, hvalueType, hvalue, hunit, hcurrency]
  rfl

end

/-! ## The stored findings -/

/-- A finding without what the publisher attaches to it after publication. -/
def Finding.bare (finding : Finding) : Finding :=
  { finding with economicStatus := none, entities := none, domains := none }

/-- The stored findings as they were published. -/
def Db.published (db : Db) : List Finding := db.findings.map Finding.bare

theorem Finding.carries_bare {finding : Finding} {request : GovernedFindingRequest} :
    finding.bare.Carries request ↔ finding.Carries request :=
  ⟨fun ⟨h₁, h₂, h₃, h₄, h₅⟩ => ⟨h₁, h₂, h₃, h₄, h₅⟩, fun ⟨h₁, h₂, h₃, h₄, h₅⟩ => ⟨h₁, h₂, h₃, h₄, h₅⟩⟩

theorem Finding.of_bare_eq {f g : Finding} (h : f.bare = g.bare) :
    f.id = g.id ∧ f.organizationId = g.organizationId ∧ f.deduplicationKey = g.deduplicationKey := by
  have hid : f.bare.id = g.bare.id := congrArg Finding.id h
  have horg : f.bare.organizationId = g.bare.organizationId := congrArg Finding.organizationId h
  have hkey : f.bare.deduplicationKey = g.bare.deduplicationKey :=
    congrArg Finding.deduplicationKey h
  exact ⟨hid, horg, hkey⟩

/-- The finding was published for the request: it has the request's values and the digest of its
content. -/
structure Finding.PublishedFor (env : Env) (finding : Finding) (request : GovernedFindingRequest) :
    Prop where
  carries : finding.Carries request
  key : ∃ content, deduplicationContent env request = .ok content ∧
    finding.deduplicationKey = env.digest content

section

variable {env : Env} {db db' : Db} {call : PublishCall} {payload : CandidateFindingCreate}
  {finding found : Finding}

theorem findOrAdd_cases (h : findOrAdd db finding = .ok (db', found)) :
    (db' = db ∧ found ∈ db.findings ∧ found.organizationId = finding.organizationId ∧
        found.deduplicationKey = finding.deduplicationKey) ∨
      (db' = { db with findings := db.findings ++ [finding] } ∧ found = finding ∧
        ∀ f ∈ db.findings, f.id ≠ finding.id ∧ ¬ (f.organizationId = finding.organizationId ∧
          f.deduplicationKey = finding.deduplicationKey)) := by
  unfold findOrAdd at h
  split at h
  · rename_i existing hexisting
    cases h
    obtain ⟨hmem, horg, hkey⟩ := Table.find?_spec hexisting
    exact .inl ⟨rfl, hmem, horg, hkey⟩
  · simp only [bind_eq_ok, orFail_eq_ok, Table.insert_eq_some, pure_eq_ok, Prod.mk.injEq] at h
    obtain ⟨findings, ⟨hfresh, rfl⟩, rfl, rfl⟩ := h
    exact .inr ⟨rfl, rfl, fun f hf => not_or.1 (hfresh f hf)⟩

/-- Attaching changes no finding as it was published, where the rows under its identifier are the
finding itself. -/
theorem attach_published {request : GovernedFindingRequest}
    (hown : ∀ f ∈ db.findings, f.id = found.id → f.bare = found.bare)
    (h : attach db request found = (db', finding)) :
    db'.published = db.published ∧ finding.bare = found.bare := by
  simp only [attach, Prod.mk.injEq] at h
  obtain ⟨rfl, rfl⟩ := h
  refine ⟨?_, rfl⟩
  simp only [Db.published, Table.update, map_map]
  refine map_congr_left fun f hf => ?_
  by_cases hid : f.id = found.id
  · simp only [Function.comp_apply, hid, decide_true, if_true]
    exact (hown f hf hid).symm
  · simp only [Function.comp_apply, hid, decide_false, Bool.false_eq_true, if_false]

theorem publishCandidateFinding_eq {readinessId : UUID}
    (hfresh : ∀ e ∈ db.executions, e.id ≠ call.executionId)
    (hpayload : candidate env call.request call.executionId = .ok payload)
    (h : publishCandidateFinding env { db with executions := db.executions ++
        [newExecution call.request readinessId call.executionId] }
        call.request.organizationId payload call.findingId = .ok (db', found)) :
    ∃ finding, findOrAdd { db with executions := db.executions ++
        [newExecution call.request readinessId call.executionId] } finding = .ok (db', found) ∧
      finding.PublishedFor env call.request ∧ finding.bare = finding ∧
      finding.organizationId = call.request.organizationId := by
  obtain ⟨-, hid, -, -, -, -, hexposure⟩ := candidate_fields hpayload
  obtain ⟨-, -, -, -, hseverity, hcondition, hcount⟩ := candidate_eq hpayload
  simp only [publishCandidateFinding, bind_eq_ok] at h
  obtain ⟨_, -, execution, heligible, _, -, _, -, _, hmeasure, _, -, key, hkey, h⟩ := h
  have hown : eligibleExecution { db with executions := db.executions ++
      [newExecution call.request readinessId call.executionId] } call.request.organizationId
      call.executionId = .ok (newExecution call.request readinessId call.executionId) :=
    eligibleExecution_recorded hfresh
  obtain rfl : newExecution call.request readinessId call.executionId = execution :=
    Except.ok.inj (hown.symm.trans (hid ▸ heligible))
  have hcurrency := (validateMeasurement_isOk hpayload).1 hmeasure
  refine ⟨_, h, ⟨⟨hcount, hexposure, hcurrency, hseverity, hcondition⟩, ?_⟩, rfl, rfl⟩
  exact deduplicationKey_eq hpayload hkey

theorem publish_returned (h : publish env db call = .returned db' (some finding)) :
    ∃ recorded published found row, recorded.findings = db.findings ∧
      findOrAdd recorded row = .ok (published, found) ∧
      attach published call.request found = (db', finding) ∧
      row.PublishedFor env call.request ∧ row.bare = row ∧
      row.organizationId = call.request.organizationId := by
  unfold publish at h
  split at h
  · cases h
  · cases h
  · rename_i gated r hgate
    have hgated : gated.findings = db.findings := by
      obtain ⟨-, -, ⟨-, -, rfl⟩ | ⟨-, -, -, -, -, rfl⟩⟩ := readinessGate_passed hgate <;> rfl
    unfold publishUnder at h
    simp only at h
    split at h
    · cases h
    · rename_i recorded hrecorded
      obtain ⟨rfl, hfresh⟩ := recordExecution_eq hrecorded
      split at h
      · cases h
      · rename_i payload hpayload
        split at h
        · cases h
        · rename_i published found hpublished
          obtain ⟨row, hrow, hfor, hbare, horg⟩ :=
            publishCandidateFinding_eq hfresh hpayload hpublished
          simp only [Outcome.returned.injEq, Option.some.injEq] at h
          refine ⟨_, published, found, row, ?_, hrow, Prod.ext h.1 h.2, hfor, hbare, horg⟩
          exact hgated

theorem publish_unanswered (h : (publish env db call).reply = none) :
    (publish env db call).session.findings = db.findings := by
  unfold publish at h ⊢
  split
  · rfl
  · rfl
  · rename_i gated r hgate
    have hgated : gated.findings = db.findings := by
      obtain ⟨-, -, ⟨-, -, rfl⟩ | ⟨-, -, -, -, -, rfl⟩⟩ := readinessGate_passed hgate <;> rfl
    rw [hgate] at h
    simp only [publishUnder] at h ⊢
    split
    · rfl
    · rename_i recorded hrecorded
      have hrows : recorded.findings = db.findings := by
        rw [(recordExecution_eq hrecorded).1]
        exact hgated
      split
      · exact hrows
      · rename_i payload hpayload
        split
        · rename_i e he
          show (afterError db recorded e).findings = db.findings
          cases e with
          | platform code message | integrity => rfl
          | validation message | unorderable => exact hrows
        · rename_i published found hpublished
          simp [hrecorded, hpayload, hpublished, Outcome.reply] at h

end

/-! ## What a history has stored -/

/-- The rows of the organization's findings after the answers `seen`: each was published for one of
the requests, and each answer is a row with the key of its request. -/
structure Traced (env : Env) (organizationId : UUID) (rows : List Finding) (seen : List Answer) :
    Prop where
  ids : ∀ f ∈ rows, f.organizationId = organizationId → ∀ g ∈ rows, g.id = f.id → g = f
  keys : ∀ f ∈ rows, ∀ g ∈ rows, f.organizationId = organizationId →
    g.organizationId = organizationId → f.deduplicationKey = g.deduplicationKey → f = g
  origin : ∀ f ∈ rows, f.organizationId = organizationId → ∃ a ∈ seen, f.PublishedFor env a.request
  stored : ∀ a ∈ seen, a.finding.bare ∈ rows ∧ a.finding.organizationId = organizationId ∧
    ∃ content, deduplicationContent env a.request = .ok content ∧
      a.finding.deduplicationKey = env.digest content

section

variable {env : Env} {organizationId : UUID} {rows : List Finding} {seen : List Answer}

theorem traced_nil (hempty : ∀ f ∈ rows, f.organizationId ≠ organizationId) :
    Traced env organizationId rows [] where
  ids f hf horg := absurd horg (hempty f hf)
  keys f hf _ _ horg := absurd horg (hempty f hf)
  origin f hf horg := absurd horg (hempty f hf)
  stored _ ha := absurd ha not_mem_nil

/-- A request that is answered with a stored row of its key. -/
theorem Traced.found {request : GovernedFindingRequest} {finding : Finding}
    (h : Traced env organizationId rows seen) (hmem : finding.bare ∈ rows)
    (horg : finding.organizationId = organizationId)
    (hkey : ∃ content, deduplicationContent env request = .ok content ∧
      finding.deduplicationKey = env.digest content) :
    Traced env organizationId rows (seen ++ [⟨request, finding⟩]) where
  ids := h.ids
  keys := h.keys
  origin f hf hforg := by
    obtain ⟨a, ha, hfor⟩ := h.origin f hf hforg
    exact ⟨a, mem_append_left _ ha, hfor⟩
  stored a ha := by
    rcases mem_append.1 ha with ha | ha
    · exact h.stored a ha
    · obtain rfl := mem_singleton.1 ha
      exact ⟨hmem, horg, hkey⟩

theorem Traced.added {request : GovernedFindingRequest} {finding : Finding}
    (h : Traced env organizationId rows seen) (horg : finding.organizationId = organizationId)
    (hfor : finding.bare.PublishedFor env request)
    (hfresh : ∀ f ∈ rows, f.id ≠ finding.id ∧ ¬ (f.organizationId = organizationId ∧
      f.deduplicationKey = finding.deduplicationKey)) :
    Traced env organizationId (rows ++ [finding.bare]) (seen ++ [⟨request, finding⟩]) where
  ids f hf hforg g hg hid := by
    rw [mem_append, mem_singleton] at hf hg
    rcases hf with hf | rfl
    · rcases hg with hg | rfl
      · exact h.ids f hf hforg g hg hid
      · exact absurd hid.symm (hfresh f hf).1
    · rcases hg with hg | rfl
      · exact absurd hid (hfresh g hg).1
      · rfl
  keys f hf g hg hforg hgorg hkey := by
    rw [mem_append, mem_singleton] at hf hg
    rcases hf with hf | rfl
    · rcases hg with hg | rfl
      · exact h.keys f hf g hg hforg hgorg hkey
      · exact absurd ⟨hforg, hkey⟩ (hfresh f hf).2
    · rcases hg with hg | rfl
      · exact absurd ⟨hgorg, hkey.symm⟩ (hfresh g hg).2
      · rfl
  origin f hf hforg := by
    rcases mem_append.1 hf with hf | hf
    · obtain ⟨a, ha, hafor⟩ := h.origin f hf hforg
      exact ⟨a, mem_append_left _ ha, hafor⟩
    · obtain rfl := mem_singleton.1 hf
      exact ⟨_, mem_append_right _ (mem_singleton_self _), hfor⟩
  stored a ha := by
    rcases mem_append.1 ha with ha | ha
    · obtain ⟨hmem, hrest⟩ := h.stored a ha
      exact ⟨mem_append_left _ hmem, hrest⟩
    · obtain rfl := mem_singleton.1 ha
      exact ⟨mem_append_right _ (mem_singleton_self _), horg, hfor.key⟩

/-- One call keeps the trace. -/
theorem Traced.step {db : Db} {call : PublishCall}
    (h : Traced env organizationId db.published seen)
    (hcall : call.request.organizationId = organizationId) :
    Traced env organizationId ((service env).next db call).published
      (seen ++ call.answered env db) := by
  cases houtcome : publish env db call with
  | raised e session =>
    have hnone : (publish env db call).reply = none := by rw [houtcome]; rfl
    have hsession := publish_unanswered hnone
    rw [houtcome] at hsession
    have hnext : ((service env).next db call).published = db.published := by
      cases hcommitted : call.committedByCaller with
      | true =>
        have hok : service env db call = .ok (session, none) := by
          simp only [service, houtcome, hcommitted, if_true]
        rw [Service.next_of_ok hok]
        exact congrArg (List.map Finding.bare) hsession
      | false =>
        rw [Service.next_of_error (e := e)
          (by simp only [service, houtcome, hcommitted, Bool.false_eq_true, if_false])]
    rw [hnext, PublishCall.answered, hnone]
    simpa using h
  | returned db' reply =>
    have hnext : (service env).next db call = db' :=
      Service.next_of_ok (r := reply) (by simp only [service, houtcome])
    rw [hnext, PublishCall.answered, houtcome]
    cases reply with
    | none =>
      have hnone : (publish env db call).reply = none := by rw [houtcome]; rfl
      have hsession := publish_unanswered hnone
      rw [houtcome] at hsession
      have hsame : db'.published = db.published := congrArg (List.map Finding.bare) hsession
      rw [hsame]
      simpa [Outcome.reply] using h
    | some finding =>
      obtain ⟨recorded, published, found, row, hrecorded, hfind, hattach, hfor, hbare, horg⟩ :=
        publish_returned houtcome
      have hrows : recorded.published = db.published := congrArg (List.map Finding.bare) hrecorded
      rw [hcall] at horg
      show Traced env organizationId db'.published (seen ++ [⟨call.request, finding⟩])
      rcases findOrAdd_cases hfind with ⟨rfl, hmem, hforg, hfkey⟩ | ⟨rfl, rfl, hfresh⟩
      · -- The finding is stored already.
        have hmem : found.bare ∈ db.published := hrows ▸ mem_map_of_mem hmem
        have hown : ∀ f ∈ published.findings, f.id = found.id → f.bare = found.bare := by
          intro f hf hid
          exact h.ids _ hmem (hforg.trans horg) _ (hrows ▸ mem_map_of_mem hf) hid
        obtain ⟨hsame, hfinding⟩ := attach_published hown hattach
        rw [hsame, hrows]
        obtain ⟨-, hsameOrg, hsameKey⟩ := Finding.of_bare_eq hfinding
        obtain ⟨content, hcontent, hkey⟩ := hfor.key
        refine h.found (hfinding ▸ hmem) (hsameOrg.trans (hforg.trans horg)) ?_
        exact ⟨content, hcontent, hsameKey.trans (hfkey.trans hkey)⟩
      · -- The finding is new.
        have hown : ∀ f ∈ recorded.findings ++ [found], f.id = found.id → f.bare = found.bare := by
          intro f hf hid
          rcases mem_append.1 hf with hf | hf
          · exact absurd hid (hfresh f hf).1
          · rw [mem_singleton.1 hf]
        obtain ⟨hsame, hfinding⟩ := attach_published hown hattach
        have hadded : db'.published = db.published ++ [finding.bare] := by
          rw [hsame, Db.published, map_append, hfinding]
          exact congrArg (· ++ [found.bare]) hrows
        obtain ⟨hsameId, hsameOrg, hsameKey⟩ := Finding.of_bare_eq hfinding
        rw [hadded]
        refine h.added (hsameOrg.trans horg) ?_ fun f hf => ?_
        · rw [hfinding, hbare]
          exact hfor
        · obtain ⟨g, hg, rfl⟩ := mem_map.1 (hrows ▸ hf)
          obtain ⟨hid, hkey⟩ := hfresh g hg
          rw [horg] at hkey
          rw [hsameId, hsameKey]
          exact ⟨hid, hkey⟩

/-- A history keeps the trace. -/
theorem Traced.run {db : Db} {calls : List PublishCall}
    (h : Traced env organizationId db.published seen)
    (hcalls : ∀ call ∈ calls, call.request.organizationId = organizationId) :
    Traced env organizationId ((service env).run db calls).published
      (seen ++ answers env db calls) := by
  induction calls generalizing db seen with
  | nil => simpa [answers] using h
  | cons call calls ih =>
    rw [answers, ← append_assoc, Service.run_cons]
    apply ih
    · exact h.step (hcalls call mem_cons_self)
    · exact fun c hc => hcalls c (mem_cons_of_mem _ hc)

theorem request_mem_of_answer {db : Db} {calls : List PublishCall} {a : Answer}
    (ha : a ∈ answers env db calls) : a.request ∈ calls.map (·.request) := by
  induction calls generalizing db with
  | nil => cases ha
  | cons call calls ih =>
    rcases mem_append.1 ha with ha | ha
    · rw [PublishCall.answered, Option.mem_toList, Option.map_eq_some_iff] at ha
      obtain ⟨finding, -, rfl⟩ := ha
      exact mem_cons_self
    · exact mem_cons_of_mem _ (ih ha)

theorem content_eq {request request' : GovernedFindingRequest} {content : DeduplicationContent}
    (h : deduplicationContent env request = .ok content)
    (h' : deduplicationContent env request' = .ok content) :
    request.definitionCode = request'.definitionCode ∧
      request.definitionVersion = request'.definitionVersion ∧
      request.findingType = request'.findingType ∧
      request.primaryDatasetId = request'.primaryDatasetId ∧
      request.affectedRecordCount = request'.affectedRecordCount := by
  simp only [deduplicationContent, bind_eq_ok, pure_eq_ok] at h h'
  obtain ⟨evidence, -, rfl⟩ := h
  obtain ⟨evidence', -, heq⟩ := h'
  simp only [DeduplicationContent.mk.injEq] at heq
  obtain ⟨-, hcode, hversion, htype, hdataset, -, -, hcount, -⟩ := heq
  exact ⟨hcode.symm, hversion.symm, htype.symm, hdataset.symm, hcount.symm⟩

end

/-! ## A recalculated shortfall -/

namespace Recalculated

def env : Env where
  strip s := s
  upper s := s
  rule _ _ := some true
  digest content := content.definitionCode ++ " " ++ toString content.measuredValue

/-- A shortfall of a work order over three records. -/
def request (shortfall : ℚ) : GovernedFindingRequest where
  organizationId := 1
  primaryDatasetId := 4
  trustAssessmentId := 2
  definitionCode := "REVENUE-AMOUNT-VARIANCE"
  definitionVersion := "1.0"
  ruleConditionCode := "partial_billing_shortfall"
  affectedRecordCount := 3
  title := "Work order WO-7 billed amount is below the expected amount"
  summary := "Expected 2000 USD from 2 record(s)"
  domainCode := "cross_domain"
  severity := .medium
  findingType := .leakage
  identityReferences := [⟨.subject, "work_order", "WO-7", some "work_order"⟩]
  domains := ["revenue"]
  limitations := ["Estimated shortfall"]
  exposureValue := some shortfall
  exposureValueType := some .currency
  exposureCurrency := some "USD"

def call (shortfall : ℚ) (drawn : UUID) : PublishCall where
  request := request shortfall
  answer := 3
  readinessId := drawn
  executionId := drawn + 1
  findingId := drawn + 2
  committedByCaller := false

def db : Db where
  organizations := [⟨1, true⟩]
  trustAssessments := [⟨2, 1, .completed⟩]
  readinessDecisions := [⟨3, 1, 2, .arithmetic, .ready, [], []⟩]
  evidenceRows := [⟨.dataset, 4, 1⟩]
  executions := []
  findings := []
  findingSourceDatasets := []

theorem collisionFree (shortfalls : List ℚ) : CollisionFree env (shortfalls.map request) := by
  intro a ha b hb c c' hc hc' _
  obtain ⟨shortfall, -, rfl⟩ := mem_map.1 ha
  obtain ⟨shortfall', -, rfl⟩ := mem_map.1 hb
  exact Except.ok.inj (hc.symm.trans hc')

end Recalculated

end Intel4Ops.Findings

import Intel4Ops.Mapping.Steps

/-!
# Reviews of mapped records

`MappingReviewService`: `review_exception` and `decide_candidate` over the records of any runs.
`Sound` is the invariant that every request keeps, `Consistent` what it says about accepted
candidates, and `reviewKept_iff` when exceptions that reached a final status stay as they are:
exactly when no candidate is accepted whose record's ambiguity was settled with `wont_fix`.
-/

namespace Intel4Ops.Mapping

open Lib List Table Option Prod

/-! ## The review service -/

def MappingReviewDecision.status : MappingReviewDecision → MappingExceptionStatus
  | confirm | override => .resolved
  | reject => .wontFix
  | defer => .underReview

/-- `review_exception`. -/
def reviewException (db : Db) (organizationId exceptionId : UUID) (decision : MappingReviewDecision)
    (actorUserId : UUID) : Raises Db := do
  let exception ← orFail (db.exceptions.find? fun x =>
    x.id = exceptionId ∧ x.organizationId = organizationId) (.service "MAPPING_EXCEPTION_NOT_FOUND")
  ensure (exception.status.isFinal = false) (.service "MAPPING_EXCEPTION_FINAL")
  return { db with
    exceptions := update (fun x => x.id = exception.id)
      (fun x => { x with status := decision.status }) db.exceptions
    reviews := db.reviews ++ [{
      id := db.nextId
      organizationId
      mappingExceptionId := exception.id
      decision
      reviewerUserId := actorUserId }]
    nextId := db.nextId + 1 }

inductive EntityMatchDecision
  | accepted | rejected | superseded
  deriving DecidableEq

def EntityMatchDecision.status : EntityMatchDecision → MatchCandidateStatus
  | accepted => .accepted
  | rejected => .rejected
  | superseded => .superseded

/-- The result of a link's record, which is the one of an entity. -/
def resultOf (db : Db) (organizationId : UUID) (link : SourceCanonicalLink) :
    Option MappingRecordResult :=
  db.results.find? fun r => r.organizationId = organizationId ∧
    r.mappingRunId = link.mappingRunId ∧
    r.rawRecordReferenceId = link.rawRecordReferenceId ∧ r.canonicalTargetKind = .entity

def ambiguityOf (db : Db) (organizationId : UUID) (result : MappingRecordResult) :
    Option MappingException :=
  db.exceptions.find? fun x => x.organizationId = organizationId ∧
    x.mappingRecordResultId = result.id ∧ x.exceptionType = .ambiguousEntity

def SourceCanonicalLink.accept (l : SourceCanonicalLink) (c : EntityMatchCandidate) :
    SourceCanonicalLink :=
  { l with
    canonicalTargetId := c.candidateEntityId
    isPrimary := true
    mappingConfidenceScore := c.matchScore
    confidenceMethodCode := "human_entity_match_review" }

def MappingRecordResult.accept (r : MappingRecordResult) (c : EntityMatchCandidate) :
    MappingRecordResult :=
  { r with
    canonicalTargetId := some c.candidateEntityId
    status := .humanConfirmed
    mappingConfidenceScore := some c.matchScore
    confidenceMethodCode := some "human_entity_match_review" }

/-- A candidate with a decision. -/
def EntityMatchCandidate.decide (c : EntityMatchCandidate) (status : MatchCandidateStatus)
    (actorUserId : UUID) : EntityMatchCandidate :=
  { c with status, decidedByUserId := some actorUserId }

def resolveAmbiguity (db : Db) (organizationId : UUID) (result : MappingRecordResult) :
    List MappingException :=
  match ambiguityOf db organizationId result with
  | none => db.exceptions
  | some x => update (fun x' => x'.id = x.id)
      (fun x' => { x' with
        status := .resolved
        resolutionSummary := some "Accepted governed entity-match candidate." }) db.exceptions

/-- The rows behind the acceptance of a candidate that is already marked. -/
def acceptCandidate (db : Db) (organizationId : UUID) (c : EntityMatchCandidate)
    (actorUserId : UUID) : Raises Db := do
  let link ← orFail (db.links.find? fun l => l.id = c.sourceCanonicalLinkId ∧
    l.organizationId = organizationId) .assertion
  let result ← orFail (resultOf db organizationId link) .assertion
  ensure (∃ e ∈ db.entities, e.id = c.candidateEntityId) .assertion
  return setSurvivorship { db with
      links := update (fun l => l.id = link.id) (·.accept c) db.links
      results := update (fun r => r.id = result.id) (·.accept c) db.results
      candidates := update
        (fun c' => c'.organizationId = organizationId ∧ c'.sourceCanonicalLinkId = link.id ∧
          c'.id ≠ c.id ∧ c'.status = .candidate)
        (·.decide .superseded actorUserId) db.candidates
      exceptions := resolveAmbiguity db organizationId result }
    c.candidateEntityId link.id

/-- `decide_candidate`. -/
def decideCandidate (db : Db) (organizationId candidateId : UUID) (decision : EntityMatchDecision)
    (actorUserId : UUID) : Raises Db := do
  let candidate ← orFail (db.candidates.find? fun c =>
    c.id = candidateId ∧ c.organizationId = organizationId) (.service "MATCH_CANDIDATE_NOT_FOUND")
  ensure (candidate.status = .candidate) (.service "MATCH_CANDIDATE_FINAL")
  let decided := { db with
    candidates := update (fun c => c.id = candidate.id)
      (·.decide decision.status actorUserId) db.candidates }
  if decision = .accepted then acceptCandidate decided organizationId candidate actorUserId
  else return decided

/-- The requests that write records and reviews. -/
inductive Request
  | execute (organizationId : UUID) (payload : MappingRunCreate) (requestFingerprint : String)
  | executeClaimed (claim : MappingExecutionClaim)
  | reviewException (organizationId exceptionId : UUID) (decision : MappingReviewDecision)
      (actorUserId : UUID)
  | decideCandidate (organizationId candidateId : UUID) (decision : EntityMatchDecision)
      (actorUserId : UUID)

/-- The mapping and review services over one store. -/
def service (env : Env) : Service Db Request Unit Raised := fun db request =>
  match request with
  | .execute org payload print => (execute env db org payload print).map fun p => (p.1, ())
  | .executeClaimed claim =>
    (executeClaimed env db claim).map fun r => ((r.map (·.1)).getD db, ())
  | .reviewException org id decision actor =>
    (reviewException db org id decision actor).map fun db' => (db', ())
  | .decideCandidate org id decision actor =>
    (decideCandidate db org id decision actor).map fun db' => (db', ())

/-! ## What is to hold -/

/-- An accepted candidate decides its link: the link and the result of its record have the
candidate's entity, the result is confirmed, and no other candidate of the link is accepted or
undecided. -/
structure Decides (db : Db) (c : EntityMatchCandidate) : Prop where
  link : ∀ l ∈ db.links, l.id = c.sourceCanonicalLinkId → l.canonicalTargetId = c.candidateEntityId
  result : ∀ l ∈ db.links, l.id = c.sourceCanonicalLinkId → ∃ r ∈ db.results, l.Of r ∧
    r.canonicalTargetId = some c.candidateEntityId ∧ r.status = .humanConfirmed
  siblings : ∀ c' ∈ db.candidates, c'.sourceCanonicalLinkId = c.sourceCanonicalLinkId →
    c'.id ≠ c.id → c'.status ≠ .accepted ∧ c'.status ≠ .candidate

/-- Every accepted candidate decides its link. -/
def Consistent (db : Db) : Prop := ∀ c ∈ db.candidates, c.status = .accepted → Decides db c

/-- Exceptions that have a final status keep it. -/
def FinalKept (db db' : Db) : Prop :=
  ∀ x ∈ db.exceptions, x.status.isFinal = true →
    ∃ x' ∈ db'.exceptions, x'.id = x.id ∧ x'.status = x.status

/-! ## The invariant -/

/-- The key under which a run's results, and its links, are unique. -/
def MappingRecordResult.key (r : MappingRecordResult) : UUID × UUID × CanonicalTypeKind :=
  (r.mappingRunId, r.rawRecordReferenceId, r.canonicalTargetKind)

def SourceCanonicalLink.key (l : SourceCanonicalLink) : UUID × UUID × CanonicalTypeKind :=
  (l.mappingRunId, l.rawRecordReferenceId, l.canonicalTargetKind)

variable {r : MappingRecordResult} {db' : Db} {org actor id : UUID}

theorem SourceCanonicalLink.Of.key_eq {l : SourceCanonicalLink} (h : l.Of r) : r.key = l.key := by
  rw [MappingRecordResult.key, SourceCanonicalLink.key, h.2.1, h.2.2.1, h.2.2.2]

theorem clashes_iff {r' : MappingRecordResult} : r.Clashes r' ↔ r.key = r'.key := by
  simp only [MappingRecordResult.Clashes, MappingRecordResult.key, mk.injEq]

/-- The tables of records: identifiers are drawn once, every link has its result, every candidate
its link, no run maps a raw record twice, and accepted candidates decide their links. -/
structure Sound (db : Db) : Prop where
  candidateIds : Unique (·.id) db.candidates
  candidateDrawn : ∀ c ∈ db.candidates, c.id < db.nextId
  linkIds : Unique (·.id) db.links
  linkDrawn : ∀ l ∈ db.links, l.id < db.nextId
  resultIds : Unique (·.id) db.results
  resultDrawn : ∀ r ∈ db.results, r.id < db.nextId
  exceptionIds : Unique (·.id) db.exceptions
  exceptionDrawn : ∀ x ∈ db.exceptions, x.id < db.nextId
  resultKeys : Unique MappingRecordResult.key db.results
  linkKeys : Unique SourceCanonicalLink.key db.links
  linkResult : ∀ l ∈ db.links, ∃ r ∈ db.results, l.Of r
  candidateLink : ∀ c ∈ db.candidates, ∃ l ∈ db.links, l.id = c.sourceCanonicalLinkId ∧
    l.organizationId = c.organizationId ∧ l.canonicalTargetKind = .entity
  consistent : Consistent db

/-- Only the tables of records matter. -/
theorem Sound.of_same {db : Db} (h : Sound db) (hsame : SameRecords db db') : Sound db' where
  candidateIds := hsame.candidates ▸ h.candidateIds
  candidateDrawn c hc := (h.candidateDrawn c (hsame.candidates ▸ hc)).trans_le hsame.supply
  linkIds := hsame.links ▸ h.linkIds
  linkDrawn l hl := (h.linkDrawn l (hsame.links ▸ hl)).trans_le hsame.supply
  resultIds := hsame.results ▸ h.resultIds
  resultDrawn r hr := (h.resultDrawn r (hsame.results ▸ hr)).trans_le hsame.supply
  exceptionIds := hsame.exceptions ▸ h.exceptionIds
  exceptionDrawn x hx := (h.exceptionDrawn x (hsame.exceptions ▸ hx)).trans_le hsame.supply
  resultKeys := hsame.results ▸ h.resultKeys
  linkKeys := hsame.links ▸ h.linkKeys
  linkResult := hsame.links ▸ hsame.results ▸ h.linkResult
  candidateLink := hsame.candidates ▸ hsame.links ▸ h.candidateLink
  consistent := fun c hc hstatus => by
    obtain ⟨hlink, hresult, hsiblings⟩ := h.consistent c (hsame.candidates ▸ hc) hstatus
    exact ⟨hsame.links ▸ hlink, hsame.links ▸ hsame.results ▸ hresult, hsame.candidates ▸ hsiblings⟩

/-! ## Mapped records keep the invariant -/

section Adds

variable {db db' : Db} {r : MappingRecordResult} {ls : List SourceCanonicalLink}
  {cs : List EntityMatchCandidate} {xs : List MappingException}

theorem Adds.supply (h : Adds db db' r ls cs xs) : db.nextId ≤ db'.nextId := by
  have hlow := h.resultDrawn.1
  have hhigh := h.resultDrawn.2
  omega

variable {l : SourceCanonicalLink} {c : EntityMatchCandidate}

section

variable (h : Adds db db' r ls cs xs)
include h

/-- The links of a record are links of its result under fresh identifiers. -/
theorem Adds.mem_links (hl : l ∈ ls) : ls = [l] ∧ LinkAdded db db' r l cs := by
  rcases h.link with ⟨rfl, -⟩ | ⟨l', rfl, hl'⟩
  · exact absurd hl not_mem_nil
  · obtain rfl := mem_singleton.1 hl
    exact ⟨rfl, hl'⟩

/-- The candidates of a record are undecided and belong to its link. -/
theorem Adds.mem_candidates (hc : c ∈ cs) : ∃ l, ls = [l] ∧ LinkAdded db db' r l cs := by
  rcases h.link with ⟨-, rfl⟩ | hlink
  · exact absurd hc not_mem_nil
  · exact hlink

theorem Adds.link_ne (hsound : Sound db) (hl : l ∈ ls) (hc : c ∈ db.candidates) :
    l.id ≠ c.sourceCanonicalLinkId := by
  obtain ⟨l', hl', hid, -, -⟩ := hsound.candidateLink c hc
  have hlow := (h.mem_links hl).2.drawn.1
  have hhigh := hsound.linkDrawn l' hl'
  rw [← hid]
  exact fun heq => absurd hlow (not_le.2 (heq ▸ hhigh))

theorem Adds.decides (hsound : Sound db) (hc : c ∈ db.candidates) (hdecides : Decides db c) :
    Decides db' c where
  link l hl hid := by
    rw [h.links, mem_append] at hl
    rcases hl with hl | hl
    · exact hdecides.link l hl hid
    · exact absurd hid (h.link_ne hsound hl hc)
  result l hl hid := by
    rw [h.links, mem_append] at hl
    rcases hl with hl | hl
    · obtain ⟨r', hr', hof⟩ := hdecides.result l hl hid
      exact ⟨r', by rw [h.results]; exact mem_append_left _ hr', hof⟩
    · exact absurd hid (h.link_ne hsound hl hc)
  siblings c' hc' hlink hne := by
    rw [h.candidates, mem_append] at hc'
    rcases hc' with hc' | hc'
    · exact hdecides.siblings c' hc' hlink hne
    · obtain ⟨l, hls, hl⟩ := h.mem_candidates hc'
      have hl' : l ∈ ls := by rw [hls]; exact mem_singleton_self l
      rw [(hl.candidates c' hc').1] at hlink
      exact absurd hlink (h.link_ne hsound hl' hc)

end

theorem unique_append_drawn {α : Type} {id : α → UUID} {rows rows' : List α}
    (hids : Unique id rows) (hids' : Unique id rows')
    (hdrawn : ∀ a ∈ rows, id a < db.nextId) (hnew : ∀ a ∈ rows', Drawn db db' (id a)) :
    Unique id (rows ++ rows') :=
  hids.append_all hids' fun a ha a' ha' => by
    have hlow := (hnew a' ha').1
    exact (lt_of_lt_of_le (hdrawn a ha) hlow).ne

theorem drawn_append {α : Type} {id : α → UUID} {rows rows' : List α}
    (hsupply : db.nextId ≤ db'.nextId) (hdrawn : ∀ a ∈ rows, id a < db.nextId)
    (hnew : ∀ a ∈ rows', Drawn db db' (id a)) : ∀ a ∈ rows ++ rows', id a < db'.nextId := by
  intro a ha
  rcases mem_append.1 ha with ha | ha
  · exact (hdrawn a ha).trans_le hsupply
  · exact (hnew a ha).2

section

variable (h : Adds db db' r ls cs xs)
include h

theorem Adds.links_drawn : Unique (·.id) ls ∧ ∀ l ∈ ls, Drawn db db' l.id := by
  rcases h.link with ⟨rfl, -⟩ | ⟨l, rfl, hl⟩
  · exact ⟨Unique.nil, fun l hl => absurd hl not_mem_nil⟩
  · exact ⟨nodup_singleton _, fun l' hl' => mem_singleton.1 hl' ▸ hl.drawn⟩

theorem Adds.exceptions_drawn : Unique (·.id) xs ∧ ∀ x ∈ xs, Drawn db db' x.id := by
  rcases h.exception with rfl | ⟨x, rfl, -, -, hx⟩
  · exact ⟨Unique.nil, fun x hx => absurd hx not_mem_nil⟩
  · exact ⟨nodup_singleton _, fun x' hx' => mem_singleton.1 hx' ▸ hx⟩

theorem Adds.key_ne (hsound : Sound db) (hl : l ∈ db.links) : l.key ≠ r.key := by
  obtain ⟨r', hr', hof⟩ := hsound.linkResult l hl
  rw [← hof.key_eq]
  exact fun heq => h.resultFree r' hr' (clashes_iff.2 heq)

/-- One record's rows keep the invariant. -/
theorem Adds.sound (hsound : Sound db) : Sound db' where
  candidateIds := by
    rw [h.candidates]
    exact unique_append_drawn hsound.candidateIds h.candidateIds hsound.candidateDrawn
      h.candidateDrawn
  candidateDrawn := by
    rw [h.candidates]
    exact drawn_append h.supply hsound.candidateDrawn h.candidateDrawn
  linkIds := by
    rw [h.links]
    exact unique_append_drawn hsound.linkIds h.links_drawn.1 hsound.linkDrawn h.links_drawn.2
  linkDrawn := by
    rw [h.links]
    exact drawn_append h.supply hsound.linkDrawn h.links_drawn.2
  resultIds := by
    rw [h.results]
    exact unique_append_drawn hsound.resultIds (nodup_singleton _) hsound.resultDrawn
      fun r' hr' => mem_singleton.1 hr' ▸ h.resultDrawn
  resultDrawn := by
    rw [h.results]
    refine drawn_append h.supply hsound.resultDrawn ?_
    exact fun r' hr' => mem_singleton.1 hr' ▸ h.resultDrawn
  exceptionIds := by
    rw [h.exceptions]
    exact unique_append_drawn hsound.exceptionIds h.exceptions_drawn.1 hsound.exceptionDrawn
      h.exceptions_drawn.2
  exceptionDrawn := by
    rw [h.exceptions]
    exact drawn_append h.supply hsound.exceptionDrawn h.exceptions_drawn.2
  resultKeys := by
    rw [h.results]
    exact hsound.resultKeys.append fun r' hr' heq => h.resultFree r' hr' (clashes_iff.2 heq)
  linkKeys := by
    rw [h.links]
    rcases h.link with ⟨rfl, -⟩ | ⟨l, rfl, hl⟩
    · rw [append_nil]
      exact hsound.linkKeys
    · exact hsound.linkKeys.append fun l' hl' => hl.of.key_eq ▸ h.key_ne hsound hl'
  linkResult l hl := by
    rw [h.results]
    rw [h.links, mem_append] at hl
    rcases hl with hl | hl
    · obtain ⟨r', hr', hof⟩ := hsound.linkResult l hl
      exact ⟨r', mem_append_left _ hr', hof⟩
    · exact ⟨r, mem_append_right _ (mem_singleton_self r), (h.mem_links hl).2.of⟩
  candidateLink c hc := by
    rw [h.links]
    rw [h.candidates, mem_append] at hc
    rcases hc with hc | hc
    · obtain ⟨l, hl, hlink⟩ := hsound.candidateLink c hc
      exact ⟨l, mem_append_left _ hl, hlink⟩
    · obtain ⟨l, rfl, hl⟩ := h.mem_candidates hc
      obtain ⟨hid, horg, -, hkind⟩ := hl.candidates c hc
      exact ⟨l, mem_append_right _ (mem_singleton_self l), hid.symm, horg.symm, hkind⟩
  consistent c hc hstatus := by
    rw [h.candidates, mem_append] at hc
    rcases hc with hc | hc
    · exact h.decides hsound hc (hsound.consistent c hc hstatus)
    · obtain ⟨l, -, hl⟩ := h.mem_candidates hc
      rw [(hl.candidates c hc).2.2.1] at hstatus
      cases hstatus

end

end Adds

/-- What requests other than reviews do: they keep the invariant and only add exceptions. -/
def Extends (db db' : Db) : Prop := (Sound db → Sound db') ∧ db.exceptions <+: db'.exceptions

theorem Extends.trans {db db'' : Db} (h : Extends db db') (h' : Extends db' db'') :
    Extends db db'' :=
  ⟨fun hsound => h'.1 (h.1 hsound), h.2.trans h'.2⟩

theorem SameRecords.extends {db : Db} (h : SameRecords db db') : Extends db db' :=
  ⟨fun hsound => hsound.of_same h, h.exceptions ▸ prefix_rfl⟩

theorem mapRecords_extends {env : Env} {version : MappingTemplateVersion}
    {records : List MappingInputRecord} {db : Db} {run run' : MappingRun}
    (h : mapRecords env version db run records = .ok (db', run')) : Extends db db' := by
  induction records generalizing db run with
  | nil =>
    simp only [mapRecords, Except.ok.injEq, mk.injEq] at h
    exact h.1 ▸ (SameRecords.refl db).extends
  | cons record records ih =>
    simp only [mapRecords, bind_eq_ok] at h
    obtain ⟨⟨mid, counted⟩, hrecord, hrest⟩ := h
    obtain ⟨r, ls, cs, xs, hadds, -⟩ := mapRecord_adds hrecord
    have hmid : Extends db mid := ⟨hadds.sound, ⟨xs, hadds.exceptions.symm⟩⟩
    exact hmid.trans (ih hrest)

theorem writeRun_same (db : Db) (run : MappingRun) : SameRecords db (writeRun db run) :=
  ⟨rfl, rfl, rfl, rfl, le_refl _⟩

theorem execute_extends {env : Env} {db : Db} {payload : MappingRunCreate} {print : String}
    {run : MappingRun} (h : execute env db org payload print = .ok (db', run)) :
    Extends db db' := by
  unfold execute at h
  split at h
  · split at h
    · simp only [Except.ok.injEq, mk.injEq] at h
      exact h.1 ▸ (SameRecords.refl db).extends
    · cases h
  · simp only [bind_eq_ok, pure_eq_ok, mk.injEq] at h
    obtain ⟨version, -, ⟨mapped, counted⟩, hmapped, rfl, -⟩ := h
    have hstart : SameRecords db { db with
        runs := db.runs ++ [newRun env db.nextId org payload print]
        nextId := db.nextId + 1 } := ⟨rfl, rfl, rfl, rfl, Nat.le_succ _⟩
    exact (hstart.extends.trans (mapRecords_extends hmapped)).trans (writeRun_same _ _).extends

theorem executeClaimed_extends {env : Env} {db : Db} {claim : MappingExecutionClaim}
    {run : MappingRun} (h : executeClaimed env db claim = .ok (some (db', run))) :
    Extends db db' := by
  unfold executeClaimed at h
  split at h
  · cases h
  · simp only [bind_eq_ok] at h
    obtain ⟨version, -, h⟩ := h
    split at h
    · simp only [pure_eq_ok, some.injEq, mk.injEq] at h
      exact h.1 ▸ (writeRun_same _ _).extends
    · rename_i mapped counted hmapped
      simp only [pure_eq_ok, some.injEq, mk.injEq] at h
      exact h.1 ▸ (mapRecords_extends hmapped).trans (writeRun_same _ _).extends

/-! ## Reviews of exceptions -/

theorem reviewException_eq {db : Db} {decision : MappingReviewDecision}
    (h : reviewException db org id decision actor = .ok db') :
    ∃ x ∈ db.exceptions, x.status.isFinal = false ∧ db' = { db with
      exceptions := update (fun x' => x'.id = x.id)
        (fun x' => { x' with status := decision.status }) db.exceptions
      reviews := db.reviews ++ [⟨db.nextId, org, x.id, decision, actor⟩]
      nextId := db.nextId + 1 } := by
  simp only [reviewException, bind_eq_ok, orFail_eq_ok, ensure_eq_ok, pure_eq_ok] at h
  obtain ⟨x, hfind, -, hopen, rfl⟩ := h
  exact ⟨x, (find?_spec hfind).1, hopen, rfl⟩

theorem Sound.update_exceptions {db : Db} (h : Sound db) {p : MappingException → Bool}
    {f : MappingException → MappingException} (hf : ∀ x, (f x).id = x.id) :
    Sound { db with exceptions := update p f db.exceptions } :=
  { h with
    exceptionIds := h.exceptionIds.update hf
    exceptionDrawn := by
      intro x hx
      obtain ⟨x', hx', rfl⟩ := mem_update.1 hx
      have hdrawn := h.exceptionDrawn x' hx'
      split
      · exact (hf x').symm ▸ hdrawn
      · exact hdrawn
    consistent := fun c hc hstatus => ⟨(h.consistent c hc hstatus).link,
      (h.consistent c hc hstatus).result, (h.consistent c hc hstatus).siblings⟩ }

theorem Sound.reviewException {db : Db} {decision : MappingReviewDecision} (h : Sound db)
    (hok : reviewException db org id decision actor = .ok db') : Sound db' := by
  obtain ⟨x, -, -, rfl⟩ := reviewException_eq hok
  have hupdated := h.update_exceptions (p := fun x' => x'.id = x.id)
    (f := fun x' => { x' with status := decision.status }) (fun _ => rfl)
  exact hupdated.of_same ⟨rfl, rfl, rfl, rfl, Nat.le_succ _⟩

theorem reviewException_finalKept {db : Db} {decision : MappingReviewDecision} (h : Sound db)
    (hok : reviewException db org id decision actor = .ok db') : FinalKept db db' := by
  obtain ⟨x, hx, hopen, rfl⟩ := reviewException_eq hok
  intro x' hx' hfinal
  have hne : x'.id ≠ x.id := by
    intro heq
    rw [h.exceptionIds.eq_of_key_eq hx' hx heq, hopen] at hfinal
    cases hfinal
  exact ⟨x', mem_update_of_mem hx' (by simpa using hne), rfl, rfl⟩

/-! ## Decisions about candidates -/

section Decide

variable {db : Db} {org actor : UUID} {c : EntityMatchCandidate}

theorem Sound.turnDown (h : Sound db) (id : UUID) {status : MatchCandidateStatus}
    (haccepted : status ≠ .accepted) (hcandidate : status ≠ .candidate) :
    Sound { db with
      candidates := update (fun c => c.id = id) (·.decide status actor) db.candidates } :=
  { h with
    candidateIds := h.candidateIds.update fun _ => rfl
    candidateDrawn := by
      intro c hc
      obtain ⟨c', hc', rfl⟩ := mem_update.1 hc
      split
      · exact h.candidateDrawn c' hc'
      · exact h.candidateDrawn c' hc'
    candidateLink := by
      intro c hc
      obtain ⟨c', hc', rfl⟩ := mem_update.1 hc
      split
      · exact h.candidateLink c' hc'
      · exact h.candidateLink c' hc'
    consistent := by
      intro c hc hstatus
      obtain ⟨c', hc', rfl⟩ := mem_update.1 hc
      split at hstatus
      · exact absurd hstatus haccepted
      · rename_i hid
        have hdecides := h.consistent c' hc' hstatus
        rw [if_neg hid]
        refine ⟨hdecides.link, hdecides.result, fun s hs hlink hne => ?_⟩
        obtain ⟨s', hs', rfl⟩ := mem_update.1 hs
        by_cases hsid : decide (s'.id = id) = true
        · rw [if_pos hsid]
          exact ⟨haccepted, hcandidate⟩
        · rw [if_neg hsid] at hlink hne ⊢
          exact hdecides.siblings s' hs' hlink hne }

/-- The candidates after the acceptance of one: it is accepted and its undecided siblings are
superseded. -/
def acceptedCandidates (db : Db) (org linkId : UUID) (c : EntityMatchCandidate) (actor : UUID) :
    List EntityMatchCandidate :=
  update
    (fun c' => c'.organizationId = org ∧ c'.sourceCanonicalLinkId = linkId ∧ c'.id ≠ c.id ∧
      c'.status = .candidate)
    (·.decide .superseded actor)
    (update (fun c' => c'.id = c.id) (·.decide .accepted actor) db.candidates)

/-- The tables after an acceptance. -/
def acceptedDb (db : Db) (org : UUID) (c : EntityMatchCandidate) (l : SourceCanonicalLink)
    (r : MappingRecordResult) (actor : UUID) : Db :=
  setSurvivorship { db with
    links := update (fun l' => l'.id = l.id) (·.accept c) db.links
    results := update (fun r' => r'.id = r.id) (·.accept c) db.results
    candidates := acceptedCandidates db org l.id c actor
    exceptions := resolveAmbiguity db org r } c.candidateEntityId l.id

/-- What an acceptance found: the undecided candidate, its link and the result of its record. -/
structure Accepting (db : Db) (org : UUID) (c : EntityMatchCandidate) (l : SourceCanonicalLink)
    (r : MappingRecordResult) : Prop where
  candidate : c ∈ db.candidates
  candidateOrg : c.organizationId = org
  undecided : c.status = .candidate
  link : l ∈ db.links
  linkId : l.id = c.sourceCanonicalLinkId
  linkOrg : l.organizationId = org
  result : resultOf db org l = some r
  entity : ∃ e ∈ db.entities, e.id = c.candidateEntityId

theorem decideCandidate_cases {db' : Db} {id : UUID} {decision : EntityMatchDecision}
    (h : decideCandidate db org id decision actor = .ok db') :
    (decision ≠ .accepted ∧ ∃ c ∈ db.candidates, db' = { db with
        candidates := update (fun c' => c'.id = c.id) (·.decide decision.status actor)
          db.candidates }) ∨
      decision = .accepted ∧ ∃ c l r,
        (db.candidates.find? fun c => c.id = id ∧ c.organizationId = org) = some c ∧
        (db.links.find? fun l => l.id = c.sourceCanonicalLinkId ∧ l.organizationId = org) = some l ∧
        Accepting db org c l r ∧ db' = acceptedDb db org c l r actor := by
  simp only [decideCandidate, bind_eq_ok, orFail_eq_ok, ensure_eq_ok] at h
  obtain ⟨c, hfind, -, hundecided, h⟩ := h
  obtain ⟨hc, -, horg⟩ := find?_spec hfind
  split at h
  · rename_i haccepted
    simp only [acceptCandidate, bind_eq_ok, orFail_eq_ok, ensure_eq_ok, pure_eq_ok] at h
    obtain ⟨l, hlink, r, hresult, -, hentity, rfl⟩ := h
    obtain ⟨hl, hid, hlorg⟩ := find?_spec hlink
    refine .inr ⟨haccepted, c, l, r, hfind, hlink, ?_, ?_⟩
    · exact ⟨hc, horg, hundecided, hl, hid, hlorg, hresult, hentity⟩
    · rw [haccepted]
      rfl
  · rename_i hne
    exact .inl ⟨hne, c, hc, (Except.ok.inj h).symm⟩

variable {c' : EntityMatchCandidate} {l : SourceCanonicalLink} {r : MappingRecordResult}

/-- An accepted candidate row is the newly accepted one, or was accepted before and belongs to
another link. -/
theorem Accepting.accepted (ha : Accepting db org c l r) (h : Sound db)
    (hc' : c' ∈ acceptedCandidates db org l.id c actor) (hstatus : c'.status = .accepted) :
    c' = c.decide .accepted actor ∨
      c' ∈ db.candidates ∧ c'.sourceCanonicalLinkId ≠ c.sourceCanonicalLinkId := by
  obtain ⟨c₁, hc₁, rfl⟩ := mem_update.1 hc'
  split at hstatus
  · cases hstatus
  · rename_i hother
    rw [if_neg hother]
    obtain ⟨c₀, hc₀, rfl⟩ := mem_update.1 hc₁
    by_cases hid : decide (c₀.id = c.id) = true
    · rw [if_pos hid]
      exact .inl (by rw [h.candidateIds.eq_of_key_eq hc₀ ha.candidate (of_decide_eq_true hid)])
    · rw [if_neg hid] at hstatus ⊢
      refine .inr ⟨hc₀, fun heq => ?_⟩
      -- A link with an accepted candidate has no undecided one.
      have hne : c.id ≠ c₀.id := fun heq' => hid (decide_eq_true heq'.symm)
      exact ((h.consistent c₀ hc₀ hstatus).siblings c ha.candidate heq.symm hne).2 ha.undecided

theorem superseded_decided : MatchCandidateStatus.superseded ≠ .accepted ∧
    MatchCandidateStatus.superseded ≠ .candidate := by
  decide

section

variable (ha : Accepting db org c l r)
include ha

theorem Accepting.siblings (h : Sound db) (hc' : c' ∈ acceptedCandidates db org l.id c actor)
    (hlink : c'.sourceCanonicalLinkId = c.sourceCanonicalLinkId) (hne : c'.id ≠ c.id) :
    c'.status ≠ .accepted ∧ c'.status ≠ .candidate := by
  constructor
  · intro hstatus
    rcases ha.accepted h hc' hstatus with rfl | ⟨-, hother⟩
    · exact hne rfl
    · exact hother hlink
  · obtain ⟨c₁, hc₁, rfl⟩ := mem_update.1 hc'
    split
    · exact superseded_decided.2
    · rename_i hother
      rw [if_neg hother] at hlink hne
      obtain ⟨c₀, hc₀, rfl⟩ := mem_update.1 hc₁
      by_cases hid : decide (c₀.id = c.id) = true
      · rw [if_pos hid] at hne
        exact absurd (of_decide_eq_true hid) hne
      · rw [if_neg hid] at hother hlink hne ⊢
        intro hstatus
        -- The sibling belongs to the same link, so to the same organization.
        obtain ⟨l', hl', hid', horg', -⟩ := h.candidateLink c₀ hc₀
        have hll : l' = l := h.linkIds.eq_of_key_eq hl' ha.link
          ((hid'.trans hlink).trans ha.linkId.symm)
        refine hother (decide_eq_true ⟨?_, hlink.trans ha.linkId.symm, hne, hstatus⟩)
        rw [← horg', hll, ha.linkOrg]

theorem Accepting.of (h : Sound db) : r ∈ db.results ∧ l.Of r := by
  obtain ⟨hr, horg, hrun, hraw, hkind⟩ := find?_spec ha.result
  obtain ⟨l', hl', hid', -, hkind'⟩ := h.candidateLink c ha.candidate
  have hll : l' = l := h.linkIds.eq_of_key_eq hl' ha.link (hid'.trans ha.linkId.symm)
  exact ⟨hr, horg.trans ha.linkOrg.symm, hrun, hraw, by rw [hkind, ← hll, hkind']⟩

theorem Accepting.decides (h : Sound db) :
    Decides (acceptedDb db org c l r actor) (c.decide .accepted actor) := by
  obtain ⟨hr, hof⟩ := ha.of h
  have hrow : ∀ l' ∈ (acceptedDb db org c l r actor).links,
      l'.id = c.sourceCanonicalLinkId → l' = l.accept c := by
    intro l' hl' hid
    obtain ⟨l₀, hl₀, rfl⟩ := mem_update.1 hl'
    have hid₀ : l₀.id = l.id := by
      rw [ha.linkId, ← hid]
      split <;> rfl
    rw [if_pos (decide_eq_true hid₀), h.linkIds.eq_of_key_eq hl₀ ha.link hid₀]
  refine ⟨fun l' hl' hid => ?_, fun l' hl' hid => ?_, fun c' hc' hlink hne => ?_⟩
  · rw [hrow l' hl' hid]
    rfl
  · rw [hrow l' hl' hid]
    refine ⟨r.accept c, ?_, hof, rfl, rfl⟩
    exact mem_update_of_selected hr (decide_eq_true rfl)
  · exact ha.siblings h hc' hlink hne

theorem Accepting.decides_other (h : Sound db)
    (hne : c'.sourceCanonicalLinkId ≠ c.sourceCanonicalLinkId) (hdecides : Decides db c') :
    Decides (acceptedDb db org c l r actor) c' := by
  obtain ⟨hr, hof⟩ := ha.of h
  have hrow : ∀ l' ∈ (acceptedDb db org c l r actor).links,
      l'.id = c'.sourceCanonicalLinkId → l' ∈ db.links ∧ l'.id ≠ l.id := by
    intro l' hl' hid
    obtain ⟨l₀, hl₀, rfl⟩ := mem_update.1 hl'
    by_cases hsel : decide (l₀.id = l.id) = true
    · rw [if_pos hsel] at hid
      have hid : l₀.id = c'.sourceCanonicalLinkId := hid
      rw [of_decide_eq_true hsel, ha.linkId] at hid
      exact absurd hid.symm hne
    · rw [if_neg hsel]
      exact ⟨hl₀, fun heq => hsel (decide_eq_true heq)⟩
  refine ⟨fun l' hl' hid => ?_, fun l' hl' hid => ?_, fun s hs hlink hsne => ?_⟩
  · exact hdecides.link l' (hrow l' hl' hid).1 hid
  · obtain ⟨hl₀, hlne⟩ := hrow l' hl' hid
    obtain ⟨r', hr', hof', htarget, hconfirmed⟩ := hdecides.result l' hl₀ hid
    refine ⟨r', mem_update_of_mem hr' (decide_eq_false ?_), hof', htarget, hconfirmed⟩
    -- Another link of the same result would be the same link.
    intro heq
    rw [h.resultIds.eq_of_key_eq hr' hr heq] at hof'
    exact hlne (congrArg _ (h.linkKeys.eq_of_key_eq hl₀ ha.link (hof'.key_eq.symm.trans hof.key_eq)))
  · obtain ⟨c₁, hc₁, rfl⟩ := mem_update.1 hs
    split
    · exact superseded_decided
    · rename_i hother
      rw [if_neg hother] at hlink hsne
      obtain ⟨c₀, hc₀, rfl⟩ := mem_update.1 hc₁
      by_cases hid : decide (c₀.id = c.id) = true
      · rw [if_pos hid] at hlink
        have hlink : c₀.sourceCanonicalLinkId = c'.sourceCanonicalLinkId := hlink
        rw [h.candidateIds.eq_of_key_eq hc₀ ha.candidate (of_decide_eq_true hid)] at hlink
        exact absurd hlink.symm hne
      · rw [if_neg hid] at hlink hsne ⊢
        exact hdecides.siblings c₀ hc₀ hlink hsne

end

theorem resolveAmbiguity_ids (org : UUID) (r : MappingRecordResult) :
    (resolveAmbiguity db org r).map (·.id) = db.exceptions.map (·.id) := by
  unfold resolveAmbiguity
  split
  · rfl
  · exact map_update _ _ fun _ => rfl

/-- An acceptance keeps the invariant. -/
theorem Accepting.sound (ha : Accepting db org c l r) (h : Sound db) :
    Sound (acceptedDb db org c l r actor) where
  candidateIds := by
    show Unique (·.id) (acceptedCandidates db org l.id c actor)
    unfold acceptedCandidates
    refine Unique.update ?_ fun _ => rfl
    exact h.candidateIds.update fun _ => rfl
  candidateDrawn c' hc' := by
    obtain ⟨c₁, hc₁, rfl⟩ := mem_update.1 hc'
    obtain ⟨c₀, hc₀, rfl⟩ := mem_update.1 hc₁
    have hdrawn := h.candidateDrawn c₀ hc₀
    split <;> split <;> exact hdrawn
  linkIds := h.linkIds.update fun _ => rfl
  linkDrawn l' hl' := by
    obtain ⟨l₀, hl₀, rfl⟩ := mem_update.1 hl'
    have hdrawn := h.linkDrawn l₀ hl₀
    split <;> exact hdrawn
  resultIds := h.resultIds.update fun _ => rfl
  resultDrawn r' hr' := by
    obtain ⟨r₀, hr₀, rfl⟩ := mem_update.1 hr'
    have hdrawn := h.resultDrawn r₀ hr₀
    split <;> exact hdrawn
  exceptionIds := by
    show ((resolveAmbiguity db org r).map (·.id)).Nodup
    rw [resolveAmbiguity_ids]
    exact h.exceptionIds
  exceptionDrawn x hx := by
    have hid : x.id ∈ (resolveAmbiguity db org r).map (·.id) := mem_map_of_mem hx
    rw [resolveAmbiguity_ids] at hid
    obtain ⟨x₀, hx₀, heq⟩ := mem_map.1 hid
    exact heq ▸ h.exceptionDrawn x₀ hx₀
  resultKeys := h.resultKeys.update fun _ => rfl
  linkKeys := h.linkKeys.update fun _ => rfl
  linkResult l' hl' := by
    obtain ⟨l₀, hl₀, rfl⟩ := mem_update.1 hl'
    obtain ⟨r₀, hr₀, hof⟩ := h.linkResult l₀ hl₀
    refine ⟨_, mem_update.2 ⟨r₀, hr₀, rfl⟩, ?_⟩
    split <;> split <;> exact hof
  candidateLink c' hc' := by
    obtain ⟨c₁, hc₁, rfl⟩ := mem_update.1 hc'
    obtain ⟨c₀, hc₀, rfl⟩ := mem_update.1 hc₁
    obtain ⟨l₀, hl₀, hlink⟩ := h.candidateLink c₀ hc₀
    refine ⟨_, mem_update.2 ⟨l₀, hl₀, rfl⟩, ?_⟩
    split <;> split <;> split <;> exact hlink
  consistent c' hc' hstatus := by
    rcases ha.accepted h hc' hstatus with rfl | ⟨hc₀, hne⟩
    · exact ha.decides h
    · exact ha.decides_other h hne (h.consistent c' hc₀ hstatus)

/-- An acceptance keeps final exceptions exactly when the ambiguity that it resolves was not settled
with `wont_fix`. -/
theorem Accepting.finalKept_iff (h : Sound db) : FinalKept db (acceptedDb db org c l r actor) ↔
      ∀ x, ambiguityOf db org r = some x → x.status ≠ .wontFix := by
  constructor
  · intro hkept x hx hwont
    have hmem : x ∈ db.exceptions := (find?_spec hx).1
    obtain ⟨x', hx', hid, hstatus⟩ := hkept x hmem (by rw [hwont]; rfl)
    have hx' : x' ∈ resolveAmbiguity db org r := hx'
    simp only [resolveAmbiguity, hx] at hx'
    obtain ⟨x₀, hx₀, rfl⟩ := mem_update.1 hx'
    have hid₀ : x₀.id = x.id := by
      rw [← hid]
      split <;> rfl
    rw [if_pos (decide_eq_true hid₀), hwont] at hstatus
    cases hstatus
  · intro hwont x hx hfinal
    show ∃ x' ∈ resolveAmbiguity db org r, _
    unfold resolveAmbiguity
    split
    · exact ⟨x, hx, rfl, rfl⟩
    · rename_i y hy
      have hmem : y ∈ db.exceptions := (find?_spec hy).1
      refine ⟨_, mem_update.2 ⟨x, hx, rfl⟩, ?_⟩
      by_cases hid : decide (x.id = y.id) = true
      · rw [if_pos hid]
        have heq : x = y := h.exceptionIds.eq_of_key_eq hx hmem (of_decide_eq_true hid)
        have hresolved : x.status = .resolved := by
          have hne := hwont y hy
          rw [← heq] at hne
          cases hs : x.status with
          | resolved => rfl
          | wontFix => exact absurd hs hne
          | «open» => rw [hs] at hfinal; cases hfinal
          | underReview => rw [hs] at hfinal; cases hfinal
        exact ⟨rfl, hresolved.symm⟩
      · rw [if_neg hid]
        exact ⟨rfl, rfl⟩

end Decide

/-! ## Runs of requests -/

/-- One request keeps accepted candidates in charge of their links, and final exceptions as they
are. -/
def ReviewKept (env : Env) (db : Db) (request : Request) : Prop :=
  Consistent ((service env).next db request) ∧ FinalKept db ((service env).next db request)

/-- The request accepts an undecided candidate whose record's ambiguity was settled with
`wont_fix`. -/
def AcceptsSettled (db : Db) : Request → Prop
  | .decideCandidate org id .accepted _ => ∃ c l r x,
    (db.candidates.find? fun c => c.id = id ∧ c.organizationId = org) = some c ∧
    (db.links.find? fun l => l.id = c.sourceCanonicalLinkId ∧ l.organizationId = org) = some l ∧
    Accepting db org c l r ∧ ambiguityOf db org r = some x ∧ x.status = .wontFix
  | .decideCandidate _ _ .rejected _ | .decideCandidate _ _ .superseded _ | .execute .. |
    .executeClaimed _ | .reviewException .. => False

theorem FinalKept.of_extended {db : Db} (h : db.exceptions <+: db'.exceptions) : FinalKept db db' :=
  fun x hx _ => ⟨x, h.subset hx, rfl, rfl⟩

theorem service_cases {env : Env} {db : Db} {request : Request} {reply : Unit}
    (hok : service env db request = .ok (db', reply)) :
    (Extends db db' ∧ ¬ AcceptsSettled db request) ∨
      (∃ org id decision actor, request = .reviewException org id decision actor ∧
        reviewException db org id decision actor = .ok db') ∨
      ∃ org id decision actor, request = .decideCandidate org id decision actor ∧
        decideCandidate db org id decision actor = .ok db' := by
  cases request with
  | execute org payload print =>
    obtain ⟨⟨db₁, run⟩, hrun, heq⟩ := map_eq_ok.1 hok
    exact .inl ⟨(mk.inj heq).1 ▸ execute_extends hrun, id⟩
  | executeClaimed claim =>
    obtain ⟨outcome, hrun, heq⟩ := map_eq_ok.1 hok
    refine .inl ⟨(mk.inj heq).1 ▸ ?_, id⟩
    cases outcome with
    | none => exact (SameRecords.refl db).extends
    | some p => exact executeClaimed_extends hrun
  | reviewException org id decision actor =>
    obtain ⟨db₁, hreview, heq⟩ := map_eq_ok.1 hok
    exact .inr (.inl ⟨org, id, decision, actor, rfl, (mk.inj heq).1 ▸ hreview⟩)
  | decideCandidate org id decision actor =>
    obtain ⟨db₁, hdecide, heq⟩ := map_eq_ok.1 hok
    exact .inr (.inr ⟨org, id, decision, actor, rfl, (mk.inj heq).1 ▸ hdecide⟩)

theorem Sound.decideCandidate {db : Db} {decision : EntityMatchDecision} (h : Sound db)
    (hok : decideCandidate db org id decision actor = .ok db') : Sound db' := by
  rcases decideCandidate_cases hok with ⟨hne, c, -, rfl⟩ | ⟨-, c, l, r, -, -, ha, rfl⟩
  · refine h.turnDown c.id ?_ ?_
    · cases decision <;> simp_all [EntityMatchDecision.status]
    · cases decision <;> simp [EntityMatchDecision.status]
  · exact ha.sound h

/-- One committed request keeps the invariant. -/
theorem Sound.step {env : Env} {db : Db} {request : Request} {reply : Unit} (h : Sound db)
    (hok : service env db request = .ok (db', reply)) : Sound db' := by
  rcases service_cases hok with ⟨hextends, -⟩ | ⟨org, id, decision, actor, -, hreview⟩ |
    ⟨org, id, decision, actor, -, hdecide⟩
  · exact hextends.1 h
  · exact h.reviewException hreview
  · exact h.decideCandidate hdecide

theorem decideCandidate_finalKept_iff {db : Db} {decision : EntityMatchDecision} (h : Sound db)
    (hok : decideCandidate db org id decision actor = .ok db') :
    FinalKept db db' ↔ ¬ AcceptsSettled db (.decideCandidate org id decision actor) := by
  rcases decideCandidate_cases hok with ⟨hne, c, -, rfl⟩ | ⟨rfl, c, l, r, hc, hl, ha, rfl⟩
  · refine iff_of_true (fun x hx _ => ⟨x, hx, rfl, rfl⟩) ?_
    cases decision with
    | accepted => exact absurd rfl hne
    | rejected | superseded => exact not_false
  · rw [Accepting.finalKept_iff h]
    constructor
    · rintro hopen ⟨c', l', r', x, hc', hl', ha', hx, hwont⟩
      obtain rfl : c = c' := some.inj (hc.symm.trans hc')
      obtain rfl : l = l' := some.inj (hl.symm.trans hl')
      obtain rfl : r = r' := some.inj (ha.result.symm.trans ha'.result)
      exact hopen x hx hwont
    · intro hsettled x hx hwont
      exact hsettled ⟨c, l, r, x, hc, hl, ha, hx, hwont⟩

/-- An acceptance that finds its rows is carried out. -/
theorem Accepting.decideCandidate {db : Db} {c : EntityMatchCandidate} {l : SourceCanonicalLink}
    (hc : (db.candidates.find? fun c => c.id = id ∧ c.organizationId = org) = some c)
    (hl : (db.links.find? fun l => l.id = c.sourceCanonicalLinkId ∧ l.organizationId = org) =
      some l) (ha : Accepting db org c l r) :
    ∃ db', decideCandidate db org id .accepted actor = .ok db' := by
  refine ⟨acceptedDb db org c l r actor, ?_⟩
  have hresult : ∀ rows, resultOf { db with candidates := rows } org l = some r :=
    fun _ => ha.result
  simp only [Mapping.decideCandidate, hc, orFail_some, ok_bind, ensure_of ha.undecided, if_true,
    acceptCandidate, hl, hresult, ensure_of ha.entity]
  rfl

theorem AcceptsSettled.ok {env : Env} {db : Db} {request : Request}
    (h : AcceptsSettled db request) : ∃ p, service env db request = .ok p := by
  cases request with
  | decideCandidate org id decision actor =>
    cases decision with
    | accepted =>
      obtain ⟨c, l, r, x, hc, hl, ha, -, -⟩ := h
      obtain ⟨db', hok⟩ : ∃ db', Mapping.decideCandidate db org id .accepted actor = .ok db' :=
        Accepting.decideCandidate hc hl ha
      exact ⟨(db', ()), by rw [service, hok]; rfl⟩
    | rejected | superseded => exact h.elim
  | execute org payload print | executeClaimed claim | reviewException org id decision actor =>
    exact h.elim

/-- One request keeps reviews consistent and final exactly when it accepts no settled candidate. -/
theorem Sound.keeps_iff {env : Env} {db : Db} (h : Sound db) (request : Request) :
    ReviewKept env db request ↔ ¬ AcceptsSettled db request := by
  rcases Service.next_cases (service env) db request with ⟨db', reply, hok, hnext⟩ |
    ⟨e, herror, hnext⟩
  · rw [ReviewKept, hnext, and_iff_right (h.step hok).consistent]
    rcases service_cases hok with ⟨hextends, hopen⟩ | ⟨org, id, decision, actor, rfl, hreview⟩ |
      ⟨org, id, decision, actor, rfl, hdecide⟩
    · exact iff_of_true (FinalKept.of_extended hextends.2) hopen
    · exact iff_of_true (reviewException_finalKept h hreview) not_false
    · exact decideCandidate_finalKept_iff h hdecide
  · rw [ReviewKept, hnext]
    refine iff_of_true ⟨h.consistent, .of_extended prefix_rfl⟩ fun hsettled => ?_
    obtain ⟨p, hok⟩ : ∃ p, service env db request = .ok p := hsettled.ok
    rw [herror] at hok
    cases hok

/-- The tables before the first run. -/
def Db.withoutRecords (db : Db) : Db :=
  { db with results := [], links := [], candidates := [], exceptions := [], reviews := [] }

theorem Sound.withoutRecords (db : Db) : Sound db.withoutRecords where
  candidateIds := Unique.nil
  candidateDrawn _ h := absurd h not_mem_nil
  linkIds := Unique.nil
  linkDrawn _ h := absurd h not_mem_nil
  resultIds := Unique.nil
  resultDrawn _ h := absurd h not_mem_nil
  exceptionIds := Unique.nil
  exceptionDrawn _ h := absurd h not_mem_nil
  resultKeys := Unique.nil
  linkKeys := Unique.nil
  linkResult _ h := absurd h not_mem_nil
  candidateLink _ h := absurd h not_mem_nil
  consistent _ h := absurd h not_mem_nil

/-- Over every run of mapping runs and reviews, accepted candidates decide their links and final
exceptions keep their status exactly when no request accepts a settled candidate. -/
theorem reviewKept_iff (env : Env) (db : Db) (requests : List Request) :
    (service env).AllSteps (ReviewKept env) db.withoutRecords requests ↔
      (service env).AllSteps (fun db request => ¬ AcceptsSettled db request) db.withoutRecords
        requests := by
  constructor
  · refine Service.allSteps_of_invariant (Sound.withoutRecords db) (fun h _ hok => h.step hok) ?_
    exact fun h hkept => (h.keeps_iff _).1 hkept
  · refine Service.allSteps_of_invariant (Sound.withoutRecords db) (fun h _ hok => h.step hok) ?_
    exact fun h hopen => (h.keeps_iff _).2 hopen

/-! ## A settled candidate that is accepted -/

namespace SettledCandidate

/-- A template with one field, `name`. -/
def version : MappingTemplateVersion where
  id := 1
  ownerOrganizationId := none
  organizationScoped := false
  targetKind := .entity
  targetTypeId := 2
  published := true
  fieldMappings := [{
    sourceFieldPath := "name"
    field := ⟨"name", none, []⟩
    isRequiredForPublication := true
    defaultValue := .null
    transformations := [] }]

/-- A stored entity, and a fuzzy rule on names. -/
def db : Db where
  nextId := 100
  versions := [version]
  crosswalkEntries := []
  matchRules := [⟨3, 2, "name_fuzzy", .fuzzyCandidate, ["name"], []⟩]
  datasetVersions := [⟨6, 9⟩]
  sourceSchemas := [⟨7, 9, 6, .active⟩]
  rawRecords := [⟨5, 9, 6⟩]
  entities := [⟨4, 9, 2, none, [("name", .json (.str "acmes"))], none, "name:acmes"⟩]
  events := []
  metrics := []
  runs := []
  inputs := []
  results := []
  links := []
  candidates := []
  exceptions := []
  reviews := []

/-- A run that maps a name that is all but the stored one. -/
def mapping : Request := .execute 9 ⟨6, 1, 7, "run", [⟨5, [("name", .str "acme")]⟩]⟩ "print"

/-- The ambiguity is rejected. -/
def rejecting : Request := .reviewException 9 105 .reject 8

/-- Then its candidate is accepted. -/
def accepting : Request := .decideCandidate 9 104 .accepted 8

def statuses (db : Db) : List (UUID × MappingExceptionStatus) :=
  db.exceptions.map fun x => (x.id, x.status)

/-- The rejected exception becomes resolved. -/
theorem not_reviewKept : ¬ (service Env.words).AllSteps (ReviewKept Env.words) db.withoutRecords
    [mapping, rejecting, accepting] := by
  rintro ⟨-, -, ⟨-, hfinal⟩, -⟩
  have hbefore : statuses ((service Env.words).run db.withoutRecords [mapping, rejecting]) =
      [(105, .wontFix)] := by
    decide +kernel
  have hafter : statuses ((service Env.words).run db.withoutRecords
      [mapping, rejecting, accepting]) = [(105, .resolved)] := by
    decide +kernel
  obtain ⟨x, hx, hstatus⟩ := mem_map.1 (hbefore ▸ mem_singleton_self _)
  obtain ⟨x', hx', -, hsame⟩ := hfinal x hx (by rw [(mk.inj hstatus).2]; rfl)
  have hmem : (x'.id, x'.status) ∈ statuses ((service Env.words).run db.withoutRecords
      [mapping, rejecting, accepting]) := mem_map_of_mem hx'
  rw [hafter, mem_singleton, hsame, (mk.inj hstatus).2] at hmem
  cases (mk.inj hmem).2

end SettledCandidate

end Intel4Ops.Mapping

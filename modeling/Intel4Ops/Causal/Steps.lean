import Intel4Ops.Causal.Service

/-!
# Causal intelligence: what a request does

`ServeStep` lists what a committed request does: it adds a hypothesis, rewrites one, or supersedes
one by a revision. `Consistent` is what all of them keep: identifiers are unique, counts are those
of the evidence, and association-only hypotheses are never under review.
-/

namespace Intel4Ops.Causal

open Lib Lib.Decimal List Table Prod

variable {env : Env} {context : Context} {db db' : Db} {org : UUID}

/-! ## The steps -/

variable {h old : CausalHypothesis} {hypothesisId : UUID}

theorem getHypothesis_ok (hget : getHypothesis db org hypothesisId = .ok h) :
    h ∈ db.hypotheses ∧ h.id = hypothesisId ∧ h.organizationId = org := by
  rw [getHypothesis, orFail_eq_ok] at hget
  exact find?_spec hget

/-- The rows after one of them is rewritten. -/
def Db.set (db : Db) (old new : CausalHypothesis) : List CausalHypothesis :=
  update (·.id = old.id) (fun _ => new) db.hypotheses

/-- A terminal hypothesis only moves along the allowed transitions. -/
def TerminalMove (old new : CausalHypothesis) : Prop :=
  old.lifecycleStatus ∈ terminalStatuses →
    new.lifecycleStatus = old.lifecycleStatus ∨
      (old.lifecycleStatus, new.lifecycleStatus) ∈ allowedTerminalTransitions

variable {hypotheses : List CausalHypothesis} {new : CausalHypothesis} {id : UUID}
  {effect : CausalOutcomeEffect}

theorem writeHypothesis_ok (h : writeHypothesis db old new = .ok hypotheses) :
    TerminalMove old new ∧ hypotheses = db.set old new := by
  obtain ⟨_, hguard, h⟩ := bind_eq_ok.1 h
  obtain rfl := pure_eq_ok.1 h
  exact ⟨fun hterminal => (ensure_eq_ok.1 hguard hterminal).2, rfl⟩

/-- No stored hypothesis has the identifier. -/
def Fresh (db : Db) (h : CausalHypothesis) : Prop := ∀ h' ∈ db.hypotheses, h'.id ≠ h.id

theorem insertHypothesis_ok (hinsert : insertHypothesis db h = .ok hypotheses) :
    Fresh db h ∧ hypotheses = db.hypotheses ++ [h] := by
  rw [insertHypothesis, orFail_eq_ok, insert_eq_some] at hinsert
  exact ⟨fun h' hh' hid => hinsert.1 h' hh' (.inl hid), hinsert.2⟩

/-- The row of a hypothesis that has neither evidence nor an evaluation. -/
structure Unevaluated (h : CausalHypothesis) : Prop where
  evidenceCount : h.evidenceCount = 0
  contradictionCount : h.contradictionCount = 0
  outcome : h.hardGateOutcome = none

/-- What one committed request does. -/
inductive ServeStep (env : Env) (db : Db) (call : Call) : Db → Prop
  | same : ServeStep env db call db
  | create (h : CausalHypothesis) (hfresh : Fresh db h) (hstatus : h.lifecycleStatus = .draft)
      (hnew : Unevaluated h) :
      ServeStep env db call { db with hypotheses := db.hypotheses ++ [h] }
  | propose (h : CausalHypothesis) (hmem : h ∈ db.hypotheses) (hstatus : h.lifecycleStatus = .draft) :
      ServeStep env db call
        { db with hypotheses := db.set h { h with lifecycleStatus := .proposed } }
  | attach (h : CausalHypothesis) (link : CausalEvidenceLink) (hmem : h ∈ db.hypotheses)
      (hstatus : h.lifecycleStatus ∉ evidenceImmutableStatuses) (hlink : link.hypothesisId = h.id) :
      ServeStep env db call { db with
        links := db.links ++ [link]
        hypotheses := db.set h (h.attached ((db.links ++ [link]).filter (·.hypothesisId = h.id))) }
  | passed (h : CausalHypothesis) (stored : ℚ) (hrequest : call.request = .evaluate h.id)
      (hmem : h ∈ db.hypotheses) (hstatus : h.lifecycleStatus ∉ terminalStatuses)
      (hgates : gateReasons call.context h (supportingLinks db h.id) = [])
      (hstored : numeric 5 4 (evaluatedConfidence env call.context db h) = some stored) :
      ServeStep env db call { db with
        hypotheses := db.set h
          ((h.evaluatedAt call.context (supportingLinks db h.id) call.now).passed env
            (evaluatedConfidence env call.context db h) stored) }
  | blocked (h : CausalHypothesis) (reasons : List GateReason)
      (hrequest : call.request = .evaluate h.id) (hmem : h ∈ db.hypotheses)
      (hstatus : h.lifecycleStatus ∉ terminalStatuses) :
      ServeStep env db call { db with
        hypotheses := db.set h
          ((h.evaluatedAt call.context (supportingLinks db h.id) call.now).blocked reasons) }
  | review (h : CausalHypothesis) (decision : CausalReviewDecision) (row : CausalReview)
      (edges : List CausalEdge) (hrequest : call.request = .review h.id decision)
      (hmem : h ∈ db.hypotheses) (hcheck : checkDecision db h decision = .ok ())
      (hmove : TerminalMove h
        { h with lifecycleStatus := resultingStatus h.lifecycleStatus decision })
      (hrow : row.hypothesisId = h.id ∧ row.decision = decision)
      (hedges : reviewedEdges db { h with
        lifecycleStatus := resultingStatus h.lifecycleStatus decision } decision call.drawn =
          .ok edges) :
      ServeStep env db call { db with
        hypotheses := db.set h
          { h with lifecycleStatus := resultingStatus h.lifecycleStatus decision }
        reviews := db.reviews ++ [row]
        edges }
  | revise (h revision : CausalHypothesis) (row : CausalOutcomeAssessment)
      (interventionId : UUID) (intervention : CausalIntervention) (effect : CausalOutcomeEffect)
      (hrequest : call.request = .assess interventionId effect)
      (hintervention : findIntervention call.context call.organizationId interventionId =
        some intervention)
      (hrevised : revisedHypothesis db intervention effect = some h)
      (hfresh : Fresh db revision) (hstatus : revision.lifecycleStatus = .underReview)
      (htype : revision.proposedEdgeType = h.proposedEdgeType) (hnew : Unevaluated revision) :
      ServeStep env db call { db with
        hypotheses := Db.set { db with hypotheses := db.hypotheses ++ [revision] } h
          (h.supersededBy revision.id)
        assessments := db.assessments ++ [row] }
  | assess (assessments : List CausalOutcomeAssessment) :
      ServeStep env db call { db with assessments }

theorem create_step {call : Call} {payload : CausalHypothesisCreate} {actor : UUID}
    {row : CausalHypothesis} (h : create env context db org payload actor id = .ok (db', row)) :
    ServeStep env db call db' := by
  obtain ⟨_, -, h⟩ := bind_eq_ok.1 h
  dsimp only at h
  split at h
  · obtain rfl := congrArg fst (pure_eq_ok.1 h)
    exact .same
  · obtain ⟨_, -, h⟩ := bind_eq_ok.1 h
    obtain ⟨hypotheses, hinsert, h⟩ := bind_eq_ok.1 h
    obtain ⟨hfresh, rfl⟩ := insertHypothesis_ok hinsert
    obtain rfl := congrArg fst (pure_eq_ok.1 h)
    exact .create _ hfresh rfl ⟨rfl, rfl, rfl⟩

theorem propose_step {call : Call} {row : CausalHypothesis}
    (h : propose db org hypothesisId = .ok (db', row)) : ServeStep env db call db' := by
  obtain ⟨hypothesis, hget, h⟩ := bind_eq_ok.1 h
  obtain ⟨_, hdraft, h⟩ := bind_eq_ok.1 h
  obtain ⟨hypotheses, hwrite, h⟩ := bind_eq_ok.1 h
  obtain ⟨-, rfl⟩ := writeHypothesis_ok hwrite
  obtain rfl := congrArg fst (pure_eq_ok.1 h)
  exact .propose hypothesis (getHypothesis_ok hget).1 (ensure_eq_ok.1 hdraft)

theorem attach_step {call : Call} {payload : CausalEvidenceLinkCreate} {now : Instant}
    {row : CausalEvidenceLink} (h : attach db org hypothesisId payload id now = .ok (db', row)) :
    ServeStep env db call db' := by
  obtain ⟨hypothesis, hget, h⟩ := bind_eq_ok.1 h
  obtain ⟨hmem, hid, -⟩ := getHypothesis_ok hget
  obtain ⟨_, hmutable, h⟩ := bind_eq_ok.1 h
  obtain ⟨links, hinsert, h⟩ := bind_eq_ok.1 h
  obtain ⟨hypotheses, hwrite, h⟩ := bind_eq_ok.1 h
  rw [orFail_eq_ok, insert_eq_some] at hinsert
  obtain ⟨-, rfl⟩ := hinsert
  obtain ⟨-, rfl⟩ := writeHypothesis_ok hwrite
  obtain rfl := congrArg fst (pure_eq_ok.1 h)
  subst hid
  exact .attach hypothesis _ hmem (ensure_eq_ok.1 hmutable) rfl

theorem evaluate_step {call : Call} {row : CausalHypothesis}
    (hrequest : call.request = .evaluate hypothesisId)
    (h : evaluate env call.context db call.organizationId hypothesisId call.now = .ok (db', row)) :
    ServeStep env db call db' := by
  obtain ⟨hypothesis, hget, h⟩ := bind_eq_ok.1 h
  obtain ⟨hmem, hid, -⟩ := getHypothesis_ok hget
  rw [← hid] at hrequest
  obtain ⟨_, hopen, h⟩ := bind_eq_ok.1 h
  dsimp only at h
  split at h
  · next hgates =>
    obtain ⟨stored, hstored, h⟩ := bind_eq_ok.1 h
    obtain ⟨hypotheses, hwrite, h⟩ := bind_eq_ok.1 h
    obtain ⟨-, rfl⟩ := writeHypothesis_ok hwrite
    obtain rfl := congrArg fst (pure_eq_ok.1 h)
    exact .passed hypothesis stored hrequest hmem (ensure_eq_ok.1 hopen) hgates
      (orFail_eq_ok.1 hstored)
  · obtain ⟨hypotheses, hwrite, h⟩ := bind_eq_ok.1 h
    obtain ⟨-, rfl⟩ := writeHypothesis_ok hwrite
    obtain rfl := congrArg fst (pure_eq_ok.1 h)
    exact .blocked hypothesis _ hrequest hmem (ensure_eq_ok.1 hopen)

theorem review_step {call : Call} {decision : CausalReviewDecision} {row : CausalReview}
    (hrequest : call.request = .review hypothesisId decision)
    (h : review db call.organizationId hypothesisId decision call.actor call.drawn = .ok (db', row))
    :
    ServeStep env db call db' := by
  obtain ⟨hypothesis, hget, h⟩ := bind_eq_ok.1 h
  obtain ⟨hmem, hid, -⟩ := getHypothesis_ok hget
  obtain ⟨_, hcheck, h⟩ := bind_eq_ok.1 h
  obtain ⟨hypotheses, hwrite, h⟩ := bind_eq_ok.1 h
  obtain ⟨edges, hedges, h⟩ := bind_eq_ok.1 h
  obtain ⟨hmove, rfl⟩ := writeHypothesis_ok hwrite
  obtain rfl := congrArg fst (pure_eq_ok.1 h)
  subst hid
  exact .review hypothesis decision _ edges hrequest hmem hcheck hmove ⟨rfl, rfl⟩ hedges

theorem assess_step {call : Call} {interventionId : UUID} {row : CausalOutcomeAssessment}
    (hrequest : call.request = .assess interventionId effect)
    (h : assess env call.context db call.organizationId interventionId effect call.actor
      call.drawn = .ok (db', row)) : ServeStep env db call db' := by
  obtain ⟨intervention, hfound, h⟩ := bind_eq_ok.1 h
  obtain ⟨db₁, hfeed, h⟩ := bind_eq_ok.1 h
  obtain rfl := congrArg fst (pure_eq_ok.1 h)
  rw [orFail_eq_ok] at hfound
  unfold feedRevision at hfeed
  split at hfeed
  · obtain rfl := Except.ok.inj hfeed
    exact .assess _
  · next hypothesis hrevised =>
    obtain ⟨hypotheses, hinsert, hfeed⟩ := bind_eq_ok.1 hfeed
    obtain ⟨hypotheses', hwrite, hfeed⟩ := bind_eq_ok.1 hfeed
    obtain ⟨hfresh, rfl⟩ := insertHypothesis_ok hinsert
    obtain ⟨-, rfl⟩ := writeHypothesis_ok hwrite
    obtain rfl := pure_eq_ok.1 hfeed
    exact .revise hypothesis _ _ interventionId intervention effect hrequest hfound hrevised hfresh
      rfl rfl ⟨rfl, rfl, rfl⟩

theorem serve_step {call : Call} {reply : Unit} (h : serve env db call = .ok (db', reply)) :
    ServeStep env db call db' := by
  unfold serve at h
  dsimp only at h
  cases hrequest : call.request
  all_goals
    rw [hrequest] at h
    obtain ⟨⟨db₁, row⟩, hop, heq⟩ := map_eq_ok.1 h
    obtain rfl := congrArg fst heq
  case create => exact create_step hop
  case propose => exact propose_step hop
  case attach => exact attach_step hop
  case evaluate => exact evaluate_step hrequest hop
  case review => exact review_step hrequest hop
  case assess => exact assess_step hrequest hop

/-! ## Rewriting one hypothesis -/

/-- A stored hypothesis after a rewrite: the rewritten one, or an untouched one. -/
theorem mem_set (hold : old ∈ db.hypotheses) :
    h ∈ db.set old new ↔ h = new ∨ h ∈ db.hypotheses ∧ h.id ≠ old.id := by
  rw [Db.set, mem_update]
  constructor
  · rintro ⟨h₀, hh₀, rfl⟩
    by_cases hid : h₀.id = old.id
    · exact .inl (by simp [hid])
    · exact .inr (by simp [hid, hh₀])
  · rintro (rfl | ⟨hh, hid⟩)
    · exact ⟨old, hold, by simp⟩
    · exact ⟨h, hh, by simp [hid]⟩

theorem mem_set_append {added : CausalHypothesis} (hold : old ∈ db.hypotheses) :
    h ∈ Db.set { db with hypotheses := db.hypotheses ++ [added] } old new ↔
      h = new ∨ (h ∈ db.hypotheses ∨ h = added) ∧ h.id ≠ old.id := by
  rw [mem_set (mem_append_left _ hold), mem_append, mem_singleton]

theorem unique_set (hids : Unique (·.id) db.hypotheses) (hnew : new.id = old.id) :
    Unique (·.id) (db.set old new) := by
  refine hids.update_of_selected fun h _ hid => ?_
  rw [decide_eq_true_eq] at hid
  exact hnew.trans hid.symm

@[simp] theorem attached_id (links : List CausalEvidenceLink) (h : CausalHypothesis) :
    (h.attached links).id = h.id := by
  unfold CausalHypothesis.attached
  split <;> rfl

@[simp] theorem attached_evidenceCount (links : List CausalEvidenceLink) (h : CausalHypothesis) :
    (h.attached links).evidenceCount = links.countP (·.supports) := by
  unfold CausalHypothesis.attached
  split <;> rfl

@[simp] theorem attached_contradictionCount (links : List CausalEvidenceLink)
    (h : CausalHypothesis) :
    (h.attached links).contradictionCount = links.countP (!·.supports) := by
  unfold CausalHypothesis.attached
  split <;> rfl

/-- New evidence leaves a hypothesis that can change in a status before its review. -/
theorem attached_lifecycleStatus {links : List CausalEvidenceLink}
    (hstatus : h.lifecycleStatus ∉ evidenceImmutableStatuses) :
    (h.attached links).lifecycleStatus = .evidencePending := by
  revert hstatus
  unfold CausalHypothesis.attached
  cases hs : h.lifecycleStatus <;>
    simp [evidenceImmutableStatuses, terminalStatuses, CausalHypothesis.recounted,
      CausalHypothesis.invalidated, hs]

/-! ## Consistency -/

/-- What every run keeps. -/
structure Consistent (db : Db) : Prop where
  ids : Unique (·.id) db.hypotheses
  owned : ∀ link ∈ db.links, ∃ h ∈ db.hypotheses, h.id = link.hypothesisId
  evidence : ∀ h ∈ db.hypotheses, h.evidenceCount = (linksOf db h.id).countP (·.supports)
  contradictions : ∀ h ∈ db.hypotheses,
    h.contradictionCount = (linksOf db h.id).countP (!·.supports)
  associations : ∀ h ∈ db.hypotheses, h.proposedEdgeType ∈ associationOnlyEdgeTypes →
    h.lifecycleStatus ≠ .underReview ∧ h.lifecycleStatus ≠ .confirmed

theorem consistent_empty : Consistent {} where
  ids := Unique.nil
  owned _ hlink := absurd hlink not_mem_nil
  evidence _ hh := absurd hh not_mem_nil
  contradictions _ hh := absurd hh not_mem_nil
  associations _ hh := absurd hh not_mem_nil

theorem Consistent.linksOf_fresh (hdb : Consistent db) (hfresh : Fresh db h) :
    linksOf db h.id = [] := by
  rw [linksOf, filter_eq_nil_iff]
  intro link hlink hid
  obtain ⟨h', hh', hid'⟩ := hdb.owned link hlink
  exact hfresh h' hh' (hid'.trans (of_decide_eq_true hid))

theorem Consistent.append (hdb : Consistent db) (hfresh : Fresh db h) (hnew : Unevaluated h)
    (hassociation : h.proposedEdgeType ∈ associationOnlyEdgeTypes →
      h.lifecycleStatus ≠ .underReview ∧ h.lifecycleStatus ≠ .confirmed) :
    Consistent { db with hypotheses := db.hypotheses ++ [h] } where
  ids := hdb.ids.append hfresh
  owned link hlink := by
    obtain ⟨h', hh', hid⟩ := hdb.owned link hlink
    exact ⟨h', mem_append_left _ hh', hid⟩
  evidence h' hh' := by
    rcases mem_append.1 hh' with hh' | hh'
    · exact hdb.evidence h' hh'
    · obtain rfl := mem_singleton.1 hh'
      have hlinks : linksOf { db with hypotheses := db.hypotheses ++ [h'] } h'.id = [] :=
        hdb.linksOf_fresh hfresh
      rw [hlinks, hnew.evidenceCount]
      rfl
  contradictions h' hh' := by
    rcases mem_append.1 hh' with hh' | hh'
    · exact hdb.contradictions h' hh'
    · obtain rfl := mem_singleton.1 hh'
      have hlinks : linksOf { db with hypotheses := db.hypotheses ++ [h'] } h'.id = [] :=
        hdb.linksOf_fresh hfresh
      rw [hlinks, hnew.contradictionCount]
      rfl
  associations h' hh' := by
    rcases mem_append.1 hh' with hh' | hh'
    · exact hdb.associations h' hh'
    · obtain rfl := mem_singleton.1 hh'
      exact hassociation

/-- A rewrite that leaves the evidence alone. -/
structure Rewrites (old new : CausalHypothesis) : Prop where
  id : new.id = old.id
  edgeType : new.proposedEdgeType = old.proposedEdgeType
  evidenceCount : new.evidenceCount = old.evidenceCount
  contradictionCount : new.contradictionCount = old.contradictionCount
  association : old.proposedEdgeType ∈ associationOnlyEdgeTypes →
    old.lifecycleStatus ≠ .underReview ∧ old.lifecycleStatus ≠ .confirmed →
    new.lifecycleStatus ≠ .underReview ∧ new.lifecycleStatus ≠ .confirmed

theorem Consistent.rewrite (hdb : Consistent db) (hold : old ∈ db.hypotheses)
    (h : Rewrites old new) : Consistent { db with hypotheses := db.set old new } where
  ids := unique_set hdb.ids h.id
  owned link hlink := by
    obtain ⟨h₀, hh₀, hid⟩ := hdb.owned link hlink
    by_cases heq : h₀.id = old.id
    · exact ⟨new, (mem_set hold).2 (.inl rfl), (h.id.trans heq.symm).trans hid⟩
    · exact ⟨h₀, (mem_set hold).2 (.inr ⟨hh₀, heq⟩), hid⟩
  evidence h' hh' := by
    rcases (mem_set hold).1 hh' with rfl | ⟨hh', -⟩
    · rw [h.evidenceCount, h.id]
      exact hdb.evidence old hold
    · exact hdb.evidence h' hh'
  contradictions h' hh' := by
    rcases (mem_set hold).1 hh' with rfl | ⟨hh', -⟩
    · rw [h.contradictionCount, h.id]
      exact hdb.contradictions old hold
    · exact hdb.contradictions h' hh'
  associations h' hh' hassociation := by
    rcases (mem_set hold).1 hh' with rfl | ⟨hh', -⟩
    · rw [h.edgeType] at hassociation
      exact h.association hassociation (hdb.associations old hold hassociation)
    · exact hdb.associations h' hh' hassociation

theorem linksOf_append (db : Db) (link : CausalEvidenceLink) (id : UUID) :
    linksOf { db with links := db.links ++ [link] } id =
      linksOf db id ++ if link.hypothesisId = id then [link] else [] := by
  rw [linksOf, filter_append, filter_singleton, Bool.cond_decide, linksOf]

theorem Consistent.attach (hdb : Consistent db) {link : CausalEvidenceLink}
    (hmem : h ∈ db.hypotheses) (hstatus : h.lifecycleStatus ∉ evidenceImmutableStatuses)
    (hlink : link.hypothesisId = h.id) :
    Consistent { db with
      links := db.links ++ [link]
      hypotheses := db.set h
        (h.attached ((db.links ++ [link]).filter (·.hypothesisId = h.id))) } where
  ids := unique_set hdb.ids (attached_id _ _)
  owned link' hlink' := by
    have howner : ∃ h₀ ∈ db.hypotheses, h₀.id = link'.hypothesisId := by
      rcases mem_append.1 hlink' with hlink' | hlink'
      · exact hdb.owned link' hlink'
      · obtain rfl := mem_singleton.1 hlink'
        exact ⟨h, hmem, hlink.symm⟩
    obtain ⟨h₀, hh₀, hid⟩ := howner
    by_cases heq : h₀.id = h.id
    · exact ⟨_, (mem_set hmem).2 (.inl rfl), by rw [attached_id, ← heq, hid]⟩
    · exact ⟨h₀, (mem_set hmem).2 (.inr ⟨hh₀, heq⟩), hid⟩
  evidence h' hh' := by
    rcases (mem_set hmem).1 hh' with rfl | ⟨hh', hid⟩
    · rw [attached_evidenceCount, attached_id]
      rfl
    · have hlinks := linksOf_append db link h'.id
      rw [if_neg (by rw [hlink]; exact fun heq => hid heq.symm), append_nil] at hlinks
      exact (hdb.evidence h' hh').trans (congrArg _ hlinks.symm)
  contradictions h' hh' := by
    rcases (mem_set hmem).1 hh' with rfl | ⟨hh', hid⟩
    · rw [attached_contradictionCount, attached_id]
      rfl
    · have hlinks := linksOf_append db link h'.id
      rw [if_neg (by rw [hlink]; exact fun heq => hid heq.symm), append_nil] at hlinks
      exact (hdb.contradictions h' hh').trans (congrArg _ hlinks.symm)
  associations h' hh' hassociation := by
    rcases (mem_set hmem).1 hh' with rfl | ⟨hh', -⟩
    · rw [attached_lifecycleStatus hstatus]
      exact ⟨by decide, by decide⟩
    · exact hdb.associations h' hh' hassociation

theorem statusAfter_association {edgeType : CausalEdgeType} (score : ℚ)
    (h : edgeType ∈ associationOnlyEdgeTypes) : statusAfter edgeType score = .probable := if_pos h

theorem checkDecision_confirm (hcheck : checkDecision db h .confirm = .ok ()) :
    h.proposedEdgeType ∉ associationOnlyEdgeTypes := by
  obtain ⟨_, -, hcheck⟩ := bind_eq_ok.1 hcheck
  obtain ⟨_, -, hcheck⟩ := bind_eq_ok.1 hcheck
  obtain ⟨_, hassociation, -⟩ := bind_eq_ok.1 hcheck
  exact ensure_eq_ok.1 hassociation rfl

theorem rewrites_review {decision : CausalReviewDecision}
    (hcheck : checkDecision db h decision = .ok ()) :
    Rewrites h { h with lifecycleStatus := resultingStatus h.lifecycleStatus decision } where
  id := rfl
  edgeType := rfl
  evidenceCount := rfl
  contradictionCount := rfl
  association hassociation hstatus := by
    cases decision with
    | confirm => exact absurd hassociation (checkDecision_confirm hcheck)
    | probable | reject | revoke => exact ⟨by simp [resultingStatus], by simp [resultingStatus]⟩
    | defer => exact hstatus

theorem rewrites_passed (h : CausalHypothesis) (links : List CausalEvidenceLink) (now : Instant)
    (score stored : ℚ) :
    Rewrites h ((h.evaluatedAt context links now).passed env score stored) where
  id := rfl
  edgeType := rfl
  evidenceCount := rfl
  contradictionCount := rfl
  association hassociation _ := by
    have hstatus : ((h.evaluatedAt context links now).passed env score stored).lifecycleStatus =
        .probable := statusAfter_association score hassociation
    rw [hstatus]
    exact ⟨by decide, by decide⟩

theorem rewrites_blocked (h : CausalHypothesis) (links : List CausalEvidenceLink) (now : Instant)
    (reasons : List GateReason) :
    Rewrites h ((h.evaluatedAt context links now).blocked reasons) where
  id := rfl
  edgeType := rfl
  evidenceCount := rfl
  contradictionCount := rfl
  association _ hstatus := by
    have hblocked : ((h.evaluatedAt context links now).blocked reasons).lifecycleStatus =
        .evidencePending := if_neg hstatus.1
    rw [hblocked]
    exact ⟨by decide, by decide⟩

theorem rewrites_superseded (revisionId : UUID)
    (hcausal : h.proposedEdgeType ∉ associationOnlyEdgeTypes) :
    Rewrites h (h.supersededBy revisionId) where
  id := rfl
  edgeType := rfl
  evidenceCount := rfl
  contradictionCount := rfl
  association hassociation := absurd hassociation hcausal

theorem revisedHypothesis_some {intervention : CausalIntervention}
    (hrevised : revisedHypothesis db intervention effect = some h) :
    ∃ edge ∈ db.edges, edge.hypothesisId = h.id ∧ h ∈ db.hypotheses ∧
      h.lifecycleStatus = .confirmed := by
  unfold revisedHypothesis at hrevised
  split at hrevised
  · obtain ⟨edgeId, -, hrevised⟩ := Option.bind_eq_some_iff.1 hrevised
    obtain ⟨edge, hedge, hrevised⟩ := Option.bind_eq_some_iff.1 hrevised
    obtain ⟨hmem, hid, hstatus⟩ := find?_spec hrevised
    exact ⟨edge, mem_of_find?_eq_some hedge, hid.symm, hmem, hstatus⟩
  · cases hrevised

theorem ServeStep.consistent {call : Call} (hstep : ServeStep env db call db')
    (hdb : Consistent db) : Consistent db' := by
  cases hstep with
  | same => exact hdb
  | create h hfresh hstatus hnew =>
    refine hdb.append hfresh hnew fun _ => ?_
    rw [hstatus]
    exact ⟨by decide, by decide⟩
  | propose h hmem =>
    refine hdb.rewrite hmem ⟨rfl, rfl, rfl, rfl, fun _ _ => ?_⟩
    exact ⟨by simp, by simp⟩
  | attach h link hmem hstatus hlink => exact hdb.attach hmem hstatus hlink
  | passed h stored _ hmem => exact hdb.rewrite hmem (rewrites_passed h _ _ _ stored)
  | blocked h reasons _ hmem => exact hdb.rewrite hmem (rewrites_blocked h _ _ reasons)
  | review h decision row edges _ hmem hcheck =>
    have hwritten := hdb.rewrite hmem (rewrites_review hcheck)
    exact ⟨hwritten.ids, hwritten.owned, hwritten.evidence, hwritten.contradictions,
      hwritten.associations⟩
  | revise h revision row _ _ _ _ _ hrevised hfresh hstatus htype hnew =>
    obtain ⟨edge, -, -, hmem, hconfirmed⟩ := revisedHypothesis_some hrevised
    -- A confirmed hypothesis is causal, and so is its revision.
    have hcausal : h.proposedEdgeType ∉ associationOnlyEdgeTypes :=
      fun hassociation => (hdb.associations h hmem hassociation).2 hconfirmed
    have happended := hdb.append hfresh hnew fun hassociation =>
      absurd (htype ▸ hassociation) hcausal
    have hwritten := happended.rewrite (mem_append_left _ hmem)
      (rewrites_superseded revision.id hcausal)
    exact ⟨hwritten.ids, hwritten.owned, hwritten.evidence, hwritten.contradictions,
      hwritten.associations⟩
  | assess => exact ⟨hdb.ids, hdb.owned, hdb.evidence, hdb.contradictions, hdb.associations⟩

theorem consistent_run (env : Env) (calls : List Call) : Consistent ((serve env).run {} calls) :=
  Service.run_invariant consistent_empty (fun hdb hok => (serve_step hok).consistent hdb) calls

/-- In every run the counters of each hypothesis are the numbers of its supporting and of its
contradicting links, and an association is neither under review nor confirmed. -/
theorem counters_exact (env : Env) (calls : List Call) :
    (∀ h ∈ ((serve env).run {} calls).hypotheses,
      h.evidenceCount = (linksOf ((serve env).run {} calls) h.id).countP (·.supports) ∧
        h.contradictionCount = (linksOf ((serve env).run {} calls) h.id).countP (!·.supports)) ∧
      ∀ h ∈ ((serve env).run {} calls).hypotheses,
        h.proposedEdgeType ∈ associationOnlyEdgeTypes →
          h.lifecycleStatus ≠ .underReview ∧ h.lifecycleStatus ≠ .confirmed := by
  have h := consistent_run env calls
  exact ⟨fun row hrow => ⟨h.evidence row hrow, h.contradictions row hrow⟩, h.associations⟩

end Intel4Ops.Causal

import Intel4Ops.Causal.Steps

/-!
# The causal graph and the reviewed hypotheses

All hypotheses with the same endpoints and type share one edge, which points to the one accepted
last and is visible while that one is confirmed or probable. So the graph agrees with the reviewed
hypotheses as long as no request withdraws the hypothesis of an edge while another accepted one
supports it.
-/

namespace Intel4Ops.Causal

open Lib Lib.Decimal List Table

section Runs

variable {env : Env} {db db' : Db}

/-! ## Accepted hypotheses -/

/-- Confirmed or probable, and not an association, which an evaluation finds probable by itself. -/
def CausalHypothesis.Accepted (h : CausalHypothesis) : Prop :=
  (h.lifecycleStatus = .confirmed ∨ h.lifecycleStatus = .probable) ∧
    h.proposedEdgeType ∉ associationOnlyEdgeTypes

instance : DecidablePred CausalHypothesis.Accepted := fun _ => inferInstanceAs (Decidable (_ ∧ _))

/-- The same organization, endpoints and type. -/
def CausalHypothesis.SameRelation (h h' : CausalHypothesis) : Prop :=
  h'.organizationId = h.organizationId ∧ h'.sourceNodeId = h.sourceNodeId ∧
    h'.targetNodeId = h.targetNodeId ∧ h'.proposedEdgeType = h.proposedEdgeType

instance : DecidableRel CausalHypothesis.SameRelation :=
  fun _ _ => inferInstanceAs (Decidable (_ ∧ _))

def CausalReviewDecision.Accepts (decision : CausalReviewDecision) : Prop :=
  decision = .confirm ∨ decision = .probable

/-- A review accepted the hypothesis, and it is still confirmed or probable. -/
def AcceptedByReview (db : Db) (h : CausalHypothesis) : Prop :=
  (∃ row ∈ db.reviews, row.hypothesisId = h.id ∧ row.decision.Accepts) ∧
    (h.lifecycleStatus = .confirmed ∨ h.lifecycleStatus = .probable)

/-- The edge has the confidence and the counts of the hypothesis. -/
def CausalEdge.Carries (h : CausalHypothesis) (e : CausalEdge) : Prop :=
  e.confidenceScore = h.confidenceScore ∧ e.evidenceCount = h.evidenceCount ∧
    e.contradictionCount = h.contradictionCount

/-- What identifies an edge. -/
def CausalEdge.key (e : CausalEdge) : UUID × UUID × UUID × CausalEdgeType :=
  (e.organizationId, e.sourceNodeId, e.targetNodeId, e.edgeType)

/-- What every run keeps of edges and reviews. -/
structure EdgesMatch (db : Db) : Prop where
  ids : Unique (·.id) db.edges
  keys : Unique CausalEdge.key db.edges
  targets : ∀ e ∈ db.edges, ∃ h ∈ db.hypotheses, h.id = e.hypothesisId ∧ e.Joins h ∧
    h.proposedEdgeType ∉ associationOnlyEdgeTypes ∧ (h.Accepted → e.Carries h)
  accepted : ∀ h ∈ db.hypotheses, h.Accepted →
    ∃ row ∈ db.reviews, row.hypothesisId = h.id ∧ row.decision.Accepts
  rows : ∀ row ∈ db.reviews, row.decision.Accepts →
    ∃ h ∈ db.hypotheses, h.id = row.hypothesisId ∧ h.proposedEdgeType ∉ associationOnlyEdgeTypes

theorem edgesMatch_empty : EdgesMatch {} where
  ids := Unique.nil
  keys := Unique.nil
  targets _ he := absurd he not_mem_nil
  accepted _ hh := absurd hh not_mem_nil
  rows _ hrow := absurd hrow not_mem_nil

variable {h old : CausalHypothesis} {e : CausalEdge} {org : UUID}

theorem acceptedByReview_iff (hids : Unique (·.id) db.hypotheses) (hedges : EdgesMatch db)
    (hh : h ∈ db.hypotheses) : AcceptedByReview db h ↔ h.Accepted := by
  constructor
  · rintro ⟨⟨row, hrow, hid, haccepts⟩, hstatus⟩
    obtain ⟨h', hh', hid', hcausal⟩ := hedges.rows row hrow haccepts
    obtain rfl := hids.eq_of_key_eq hh hh' (hid.symm.trans hid'.symm)
    exact ⟨hstatus, hcausal⟩
  · intro haccepted
    exact ⟨hedges.accepted h hh haccepted, haccepted.1⟩

/-! ## Quiet rewrites -/

/-- A rewrite that accepts nothing: the new row is not accepted, unless it is the old one. -/
structure Quiet (old new : CausalHypothesis) : Prop where
  id : new.id = old.id
  relation : old.SameRelation new
  same : new.Accepted → new = old

variable {new : CausalHypothesis} {edgeId : UUID}

theorem CausalEdge.Joins.congr (h : e.Joins old) (hsame : old.SameRelation new) : e.Joins new := by
  obtain ⟨horg, hsource, htarget, htype⟩ := hsame
  rw [CausalEdge.Joins, horg, hsource, htarget, htype]
  exact h

theorem EdgesMatch.rewrite (hedges : EdgesMatch db) (hids : Unique (·.id) db.hypotheses)
    (hold : old ∈ db.hypotheses) (hquiet : Quiet old new) :
    EdgesMatch { db with hypotheses := db.set old new } where
  ids := hedges.ids
  keys := hedges.keys
  targets e he := by
    obtain ⟨h, hh, hid, hjoins, hcausal, hcarries⟩ := hedges.targets e he
    by_cases heq : h.id = old.id
    · obtain rfl := hids.eq_of_key_eq hh hold heq
      refine ⟨new, (mem_set hold).2 (.inl rfl), hquiet.id.trans hid, hjoins.congr hquiet.relation,
        ?_, fun haccepted => ?_⟩
      · rw [hquiet.relation.2.2.2]
        exact hcausal
      · obtain rfl := hquiet.same haccepted
        exact hcarries haccepted
    · exact ⟨h, (mem_set hold).2 (.inr ⟨hh, heq⟩), hid, hjoins, hcausal, hcarries⟩
  accepted h hh haccepted := by
    rcases (mem_set hold).1 hh with rfl | ⟨hh, -⟩
    · obtain rfl := hquiet.same haccepted
      exact hedges.accepted h hold haccepted
    · exact hedges.accepted h hh haccepted
  rows row hrow haccepts := by
    obtain ⟨h, hh, hid, hcausal⟩ := hedges.rows row hrow haccepts
    by_cases heq : h.id = old.id
    · obtain rfl := hids.eq_of_key_eq hh hold heq
      refine ⟨new, (mem_set hold).2 (.inl rfl), hquiet.id.trans hid, ?_⟩
      rw [hquiet.relation.2.2.2]
      exact hcausal
    · exact ⟨h, (mem_set hold).2 (.inr ⟨hh, heq⟩), hid, hcausal⟩

theorem EdgesMatch.append (hedges : EdgesMatch db) (hnot : ¬ h.Accepted) :
    EdgesMatch { db with hypotheses := db.hypotheses ++ [h] } where
  ids := hedges.ids
  keys := hedges.keys
  targets e he := by
    obtain ⟨h', hh', hrest⟩ := hedges.targets e he
    exact ⟨h', mem_append_left _ hh', hrest⟩
  accepted h' hh' haccepted := by
    rcases mem_append.1 hh' with hh' | hh'
    · exact hedges.accepted h' hh' haccepted
    · obtain rfl := mem_singleton.1 hh'
      exact absurd haccepted hnot
  rows row hrow haccepts := by
    obtain ⟨h', hh', hrest⟩ := hedges.rows row hrow haccepts
    exact ⟨h', mem_append_left _ hh', hrest⟩

theorem not_accepted_of_status {status : CausalHypothesisStatus}
    (hstatus : h.lifecycleStatus = status) (hne : status ≠ .confirmed ∧ status ≠ .probable) :
    ¬ h.Accepted := by
  rintro ⟨hconfirmed | hprobable, -⟩
  · exact hne.1 (hstatus.symm.trans hconfirmed)
  · exact hne.2 (hstatus.symm.trans hprobable)

/-- A rewrite to a status that is not accepted. -/
theorem Quiet.of_status (status : CausalHypothesisStatus) (hid : new.id = old.id)
    (hrelation : old.SameRelation new) (hstatus : new.lifecycleStatus = status)
    (hne : status ≠ .confirmed ∧ status ≠ .probable) : Quiet old new where
  id := hid
  relation := hrelation
  same haccepted := absurd haccepted (not_accepted_of_status hstatus hne)

theorem attached_sameRelation (links : List CausalEvidenceLink) (h : CausalHypothesis) :
    h.SameRelation (h.attached links) := by
  unfold CausalHypothesis.attached
  split <;> exact ⟨rfl, rfl, rfl, rfl⟩

theorem quiet_attached {links : List CausalEvidenceLink}
    (hstatus : h.lifecycleStatus ∉ evidenceImmutableStatuses) : Quiet h (h.attached links) :=
  .of_status .evidencePending (attached_id _ _) (attached_sameRelation _ _)
    (attached_lifecycleStatus hstatus) ⟨by decide, by decide⟩

theorem not_accepted_passed (h : CausalHypothesis) (score stored : ℚ) :
    ¬ (h.passed env score stored).Accepted := by
  rintro ⟨hstatus, hcausal⟩
  have hafter : (h.passed env score stored).lifecycleStatus =
      if probableConfidenceThreshold ≤ score then .underReview else .evidencePending :=
    if_neg hcausal
  rw [hafter] at hstatus
  split at hstatus <;> rcases hstatus with h | h <;> cases h

theorem not_accepted_blocked (h : CausalHypothesis) (reasons : List GateReason) :
    ¬ (h.blocked reasons).Accepted := by
  rintro ⟨hstatus, -⟩
  have hblocked : (h.blocked reasons).lifecycleStatus =
      if h.lifecycleStatus = .underReview then .underReview else .evidencePending := rfl
  rw [hblocked] at hstatus
  split at hstatus <;> rcases hstatus with h | h <;> cases h

theorem quiet_passed (h : CausalHypothesis) (context : Context) (links : List CausalEvidenceLink)
    (now : Instant) (score stored : ℚ) :
    Quiet h ((h.evaluatedAt context links now).passed env score stored) where
  id := rfl
  relation := ⟨rfl, rfl, rfl, rfl⟩
  same haccepted := absurd haccepted (not_accepted_passed _ score stored)

theorem quiet_blocked (h : CausalHypothesis) (context : Context)
    (links : List CausalEvidenceLink) (now : Instant) (reasons : List GateReason) :
    Quiet h ((h.evaluatedAt context links now).blocked reasons) where
  id := rfl
  relation := ⟨rfl, rfl, rfl, rfl⟩
  same haccepted := absurd haccepted (not_accepted_blocked _ reasons)

theorem quiet_review {decision : CausalReviewDecision} (hnot : ¬ decision.Accepts) :
    Quiet h { h with lifecycleStatus := resultingStatus h.lifecycleStatus decision } := by
  cases decision with
  | confirm => exact absurd (.inl rfl) hnot
  | probable => exact absurd (.inr rfl) hnot
  | reject => exact .of_status .rejected rfl ⟨rfl, rfl, rfl, rfl⟩ rfl ⟨by decide, by decide⟩
  | revoke => exact .of_status .revoked rfl ⟨rfl, rfl, rfl, rfl⟩ rfl ⟨by decide, by decide⟩
  | defer => exact ⟨rfl, ⟨rfl, rfl, rfl, rfl⟩, fun _ => rfl⟩

theorem quiet_superseded (h : CausalHypothesis) (revisionId : UUID) :
    Quiet h (h.supersededBy revisionId) :=
  .of_status .superseded rfl ⟨rfl, rfl, rfl, rfl⟩ rfl ⟨by decide, by decide⟩

/-! ## Accepting reviews -/

theorem reviewedEdges_quiet {decision : CausalReviewDecision} {edges : List CausalEdge}
    (hnot : ¬ decision.Accepts) (hedges : reviewedEdges db h decision edgeId = .ok edges) :
    edges = db.edges := by
  cases decision with
  | confirm => exact absurd (.inl rfl) hnot
  | probable => exact absurd (.inr rfl) hnot
  | reject | revoke | defer => exact (Except.ok.inj hedges).symm

/-- The edge of the accepted hypothesis points to it, and the other edges are as they were. -/
structure Materialized (edges : List CausalEdge) (h : CausalHypothesis)
    (edges' : List CausalEdge) : Prop where
  ids : Unique (·.id) edges'
  keys : Unique CausalEdge.key edges'
  edge : ∃ e ∈ edges', e.Joins h ∧ e.hypothesisId = h.id
  cases : ∀ e ∈ edges', e.Joins h ∧ e.hypothesisId = h.id ∧ e.Carries h ∨
    ¬ e.Joins h ∧ e ∈ edges
  kept : ∀ e ∈ edges, ¬ e.Joins h → e ∈ edges'

theorem joins_iff_key {e' : CausalEdge} (hjoins : e.Joins h) : e'.Joins h ↔ e'.key = e.key := by
  obtain ⟨horg, hsource, htarget, htype⟩ := hjoins
  rw [CausalEdge.Joins, CausalEdge.key, CausalEdge.key, Prod.mk.injEq, Prod.mk.injEq,
    Prod.mk.injEq, horg, hsource, htarget, htype]

theorem materializeEdge_ok {edges edges' : List CausalEdge} {id : UUID}
    (hids : Unique (·.id) edges) (hkeys : Unique CausalEdge.key edges)
    (hmaterialize : materializeEdge edges h id = .ok edges') : Materialized edges h edges' := by
  unfold materializeEdge at hmaterialize
  split at hmaterialize
  · next existing hfound =>
    obtain rfl := pure_eq_ok.1 hmaterialize
    obtain ⟨hmem, hjoins⟩ := find?_spec hfound
    have hjoins' : (existing.pointTo h).Joins h := hjoins
    -- The edges with the identifier of the found edge are those that join the nodes.
    have hiff : ∀ e ∈ edges, e.id = existing.id ↔ e.Joins h := by
      intro e he
      constructor
      · intro hid
        obtain rfl := hids.eq_of_key_eq he hmem hid
        exact hjoins
      · intro hej
        rw [hkeys.eq_of_key_eq he hmem ((joins_iff_key hjoins).1 hej)]
    refine ⟨hids.update fun _ => rfl, hkeys.update fun _ => rfl,
      ⟨existing.pointTo h, mem_update_of_selected hmem (by simp), hjoins', rfl⟩,
      fun e he => ?_, fun e he hnot => ?_⟩
    · obtain ⟨e₀, he₀, rfl⟩ := mem_update.1 he
      by_cases hid : e₀.id = existing.id
      · rw [if_pos (by simp [hid])]
        have he₀j : e₀.Joins h := (hiff e₀ he₀).1 hid
        exact .inl ⟨he₀j, rfl, rfl, rfl, rfl⟩
      · rw [if_neg (by simp [hid])]
        exact .inr ⟨fun hej => hid ((hiff e₀ he₀).2 hej), he₀⟩
    · exact mem_update_of_mem he (decide_eq_false fun hid => hnot ((hiff e he).1 hid))
  · next hnone =>
    rw [orFail_eq_ok, insert_eq_some] at hmaterialize
    obtain ⟨hfresh, rfl⟩ := hmaterialize
    have hnot : ∀ e ∈ edges, ¬ e.Joins h := by
      intro e he
      simpa using List.find?_eq_none.1 hnone e he
    have hnew : (newEdge h id).Joins h := ⟨rfl, rfl, rfl, rfl⟩
    refine ⟨hids.append hfresh, hkeys.append fun e he hkey => ?_,
      ⟨newEdge h id, by simp, hnew, rfl⟩, fun e he => ?_,
      fun e he _ => mem_append_left _ he⟩
    · exact hnot e he ((joins_iff_key hnew).2 hkey)
    · rcases mem_append.1 he with he | he
      · exact .inr ⟨hnot e he, he⟩
      · obtain rfl := mem_singleton.1 he
        exact .inl ⟨hnew, rfl, rfl, rfl, rfl⟩

theorem causal_of_accepts (hdb : Consistent db) (hh : h ∈ db.hypotheses)
    {decision : CausalReviewDecision} (haccepts : decision.Accepts)
    (hcheck : checkDecision db h decision = .ok ()) :
    h.proposedEdgeType ∉ associationOnlyEdgeTypes := by
  rcases haccepts with rfl | rfl
  · exact checkDecision_confirm hcheck
  · obtain ⟨_, hreviewable, -⟩ := bind_eq_ok.1 hcheck
    have hstatus := mem_singleton.1 (ensure_eq_ok.1 hreviewable)
    exact fun hassociation => (hdb.associations h hh hassociation).1 hstatus

theorem reviewedEdges_accepts {decision : CausalReviewDecision} {edges : List CausalEdge}
    (haccepts : decision.Accepts) (hedges : reviewedEdges db h decision edgeId = .ok edges) :
    materializeEdge db.edges h edgeId = .ok edges := by
  rcases haccepts with rfl | rfl <;> exact hedges

theorem EdgesMatch.accept (hedges : EdgesMatch db) (hids : Unique (·.id) db.hypotheses)
    {edges : List CausalEdge} (hmaterialized : Materialized db.edges new edges)
    (hold : old ∈ db.hypotheses) (hid : new.id = old.id) (hrelation : old.SameRelation new)
    (hcausal : new.proposedEdgeType ∉ associationOnlyEdgeTypes) {row : CausalReview}
    (hrow : row.hypothesisId = new.id) (haccepts : row.decision.Accepts) :
    EdgesMatch { db with
      hypotheses := db.set old new, reviews := db.reviews ++ [row], edges } where
  ids := hmaterialized.ids
  keys := hmaterialized.keys
  targets e he := by
    rcases hmaterialized.cases e he with ⟨hjoins, hpoints, hcarries⟩ | ⟨hnot, he⟩
    · exact ⟨new, (mem_set hold).2 (.inl rfl), hpoints.symm, hjoins, hcausal, fun _ => hcarries⟩
    · obtain ⟨h, hh, hid', hjoins, hrest⟩ := hedges.targets e he
      refine ⟨h, (mem_set hold).2 (.inr ⟨hh, fun heq => hnot ?_⟩), hid', hjoins, hrest⟩
      obtain rfl := hids.eq_of_key_eq hh hold heq
      exact hjoins.congr hrelation
  accepted h hh haccepted := by
    rcases (mem_set hold).1 hh with rfl | ⟨hh, -⟩
    · exact ⟨row, by simp, hrow, haccepts⟩
    · obtain ⟨row', hrow', hrest⟩ := hedges.accepted h hh haccepted
      exact ⟨row', mem_append_left _ hrow', hrest⟩
  rows row' hrow' haccepts' := by
    rcases mem_append.1 hrow' with hrow' | hrow'
    · obtain ⟨h, hh, hid', hcausal'⟩ := hedges.rows row' hrow' haccepts'
      by_cases heq : h.id = old.id
      · exact ⟨new, (mem_set hold).2 (.inl rfl), (hid.trans heq.symm).trans hid', hcausal⟩
      · exact ⟨h, (mem_set hold).2 (.inr ⟨hh, heq⟩), hid', hcausal'⟩
    · obtain rfl := mem_singleton.1 hrow'
      exact ⟨new, (mem_set hold).2 (.inl rfl), hrow.symm, hcausal⟩

theorem EdgesMatch.quietRow (hedges : EdgesMatch db) {row : CausalReview}
    (hnot : ¬ row.decision.Accepts) :
    EdgesMatch { db with reviews := db.reviews ++ [row] } where
  ids := hedges.ids
  keys := hedges.keys
  targets := hedges.targets
  accepted h hh haccepted := by
    obtain ⟨row', hrow', hrest⟩ := hedges.accepted h hh haccepted
    exact ⟨row', mem_append_left _ hrow', hrest⟩
  rows row' hrow' haccepts := by
    rcases mem_append.1 hrow' with hrow' | hrow'
    · exact hedges.rows row' hrow' haccepts
    · obtain rfl := mem_singleton.1 hrow'
      exact absurd haccepts hnot

theorem EdgesMatch.congr (hedges : EdgesMatch db) (hhypotheses : db'.hypotheses = db.hypotheses)
    (hreviews : db'.reviews = db.reviews) (hedges' : db'.edges = db.edges) : EdgesMatch db' where
  ids := hedges' ▸ hedges.ids
  keys := hedges' ▸ hedges.keys
  targets := hedges' ▸ hhypotheses ▸ hedges.targets
  accepted := hreviews ▸ hhypotheses ▸ hedges.accepted
  rows := hreviews ▸ hhypotheses ▸ hedges.rows

theorem ServeStep.edgesMatch {call : Call} (hstep : ServeStep env db call db')
    (hdb : Consistent db) (hedges : EdgesMatch db) : EdgesMatch db' := by
  cases hstep with
  | same => exact hedges
  | create h _ hstatus =>
    exact hedges.append (not_accepted_of_status hstatus ⟨by decide, by decide⟩)
  | propose h hmem =>
    exact hedges.rewrite hdb.ids hmem
      (.of_status .proposed rfl ⟨rfl, rfl, rfl, rfl⟩ rfl ⟨by decide, by decide⟩)
  | attach h link hmem hstatus =>
    exact (hedges.rewrite hdb.ids hmem (quiet_attached hstatus)).congr rfl rfl rfl
  | passed h stored _ hmem => exact hedges.rewrite hdb.ids hmem (quiet_passed h _ _ _ _ stored)
  | blocked h reasons _ hmem => exact hedges.rewrite hdb.ids hmem (quiet_blocked h _ _ _ reasons)
  | review h decision row edges _ hmem hcheck _ hrow hreviewed =>
    by_cases haccepts : decision.Accepts
    · have hcausal := causal_of_accepts hdb hmem haccepts hcheck
      have hmaterialized := materializeEdge_ok hedges.ids hedges.keys
        (reviewedEdges_accepts haccepts hreviewed)
      exact hedges.accept hdb.ids hmaterialized hmem rfl ⟨rfl, rfl, rfl, rfl⟩ hcausal hrow.1
        (hrow.2.symm ▸ haccepts)
    · obtain rfl := reviewedEdges_quiet haccepts hreviewed
      exact ((hedges.rewrite hdb.ids hmem (quiet_review haccepts)).quietRow
        (hrow.2.symm ▸ haccepts)).congr rfl rfl rfl
  | revise h revision row _ _ _ _ _ hrevised hfresh hstatus =>
    obtain ⟨edge, -, -, hmem, -⟩ := revisedHypothesis_some hrevised
    have happended := hedges.append (not_accepted_of_status hstatus ⟨by decide, by decide⟩)
    exact (happended.rewrite (hdb.ids.append hfresh) (mem_append_left _ hmem)
      (quiet_superseded h revision.id)).congr rfl rfl rfl
  | assess => exact hedges.congr rfl rfl rfl

/-! ## Covered hypotheses -/

/-- Every accepted hypothesis has an edge that points to an accepted hypothesis. -/
def Covered (db : Db) : Prop :=
  ∀ h ∈ db.hypotheses, h.Accepted → ∃ e ∈ db.edges, e.Joins h ∧
    ∃ h' ∈ db.hypotheses, h'.id = e.hypothesisId ∧ h'.Accepted

/-- The request takes the hypothesis out of the accepted ones. -/
def withdraws (db : Db) (call : Call) (h : CausalHypothesis) : Bool :=
  match call.request with
  | .review id .reject => id = h.id && h.lifecycleStatus = .probable
  | .review id .revoke => id = h.id && h.lifecycleStatus = .confirmed
  | .evaluate id => id = h.id && h.lifecycleStatus = .probable
  | .assess interventionId effect =>
    (findIntervention call.context call.organizationId interventionId).any fun i =>
      revisedHypothesis db i effect = some h
  | _ => false

/-- The request withdraws a hypothesis to which an edge points, while another accepted one is about
the same relation. -/
def Orphans (db : Db) (call : Call) : Prop :=
  ∃ h ∈ db.hypotheses, h.Accepted ∧ withdraws db call h = true ∧
    (∃ e ∈ db.edges, e.hypothesisId = h.id) ∧
    ∃ h' ∈ db.hypotheses, h'.id ≠ h.id ∧ h.SameRelation h' ∧ h'.Accepted

instance : DecidableRel Orphans := fun _ _ => inferInstanceAs (Decidable (∃ _ ∈ _, _))

theorem CausalEdge.Joins.sameRelation {h' : CausalHypothesis} (hjoins : e.Joins h)
    (hjoins' : e.Joins h') : h.SameRelation h' := by
  obtain ⟨horg, hsource, htarget, htype⟩ := hjoins
  obtain ⟨horg', hsource', htarget', htype'⟩ := hjoins'
  exact ⟨horg'.symm.trans horg, hsource'.symm.trans hsource, htarget'.symm.trans htarget,
    htype'.symm.trans htype⟩

/-- A quiet rewrite keeps the accepted hypotheses covered, unless it takes the hypothesis of an edge
away from another one. -/
theorem Covered.rewrite (hcovered : Covered db) (hedges : EdgesMatch db)
    (hids : Unique (·.id) db.hypotheses) (hold : old ∈ db.hypotheses)
    (hquiet : Quiet old new)
    (halone : ¬ new.Accepted → old.Accepted → (∃ e ∈ db.edges, e.hypothesisId = old.id) →
      ∀ h ∈ db.hypotheses, h.id ≠ old.id → old.SameRelation h → ¬ h.Accepted) :
    Covered { db with hypotheses := db.set old new } := by
  intro h hh haccepted
  -- Whatever pointed to the old row points to the new one, when that is accepted.
  have hnew : new.Accepted → ∃ e ∈ db.edges, e.Joins new ∧
      ∃ h' ∈ db.set old new, h'.id = e.hypothesisId ∧ h'.Accepted := by
    intro hnew
    obtain rfl := hquiet.same hnew
    obtain ⟨e, he, hjoins, h', hh', hid, haccepted'⟩ := hcovered new hold hnew
    refine ⟨e, he, hjoins, ?_⟩
    by_cases heq : h'.id = new.id
    · exact ⟨new, (mem_set hold).2 (.inl rfl), heq.symm.trans hid, hnew⟩
    · exact ⟨h', (mem_set hold).2 (.inr ⟨hh', heq⟩), hid, haccepted'⟩
  rcases (mem_set hold).1 hh with rfl | ⟨hbefore, hne⟩
  · exact hnew haccepted
  · obtain ⟨e, he, hjoins, h', hh', hid, haccepted'⟩ := hcovered h hbefore haccepted
    by_cases heq : h'.id = old.id
    · obtain rfl := hids.eq_of_key_eq hh' hold heq
      by_cases hstays : new.Accepted
      · exact ⟨e, he, hjoins, new, (mem_set hold).2 (.inl rfl), hquiet.id.trans hid, hstays⟩
      · obtain ⟨target, htarget, hid', hjoins', -⟩ := hedges.targets e he
        obtain rfl := hids.eq_of_key_eq htarget hold (hid'.trans hid.symm)
        exact absurd haccepted
          (halone hstays haccepted' ⟨e, he, hid.symm⟩ h hbefore hne (hjoins'.sameRelation hjoins))
    · exact ⟨e, he, hjoins, h', (mem_set hold).2 (.inr ⟨hh', heq⟩), hid, haccepted'⟩

theorem Covered.append (hcovered : Covered db) (hnot : ¬ h.Accepted) :
    Covered { db with hypotheses := db.hypotheses ++ [h] } := by
  intro h₀ hh₀ haccepted
  rcases mem_append.1 hh₀ with hh₀ | hh₀
  · obtain ⟨e, he, hjoins, h', hh', hrest⟩ := hcovered h₀ hh₀ haccepted
    exact ⟨e, he, hjoins, h', mem_append_left _ hh', hrest⟩
  · obtain rfl := mem_singleton.1 hh₀
    exact absurd haccepted hnot

theorem Covered.accept (hcovered : Covered db) {edges : List CausalEdge}
    (hmaterialized : Materialized db.edges new edges) (hold : old ∈ db.hypotheses)
    (hid : new.id = old.id) (haccepted : new.Accepted) (reviews : List CausalReview) :
    Covered { db with hypotheses := db.set old new, reviews, edges } := by
  have hnew : new ∈ db.set old new := (mem_set hold).2 (.inl rfl)
  obtain ⟨edge, hedge, hjoinsNew, hpoints⟩ := hmaterialized.edge
  intro h hh haccepted'
  rcases (mem_set hold).1 hh with rfl | ⟨hh, -⟩
  · exact ⟨edge, hedge, hjoinsNew, h, hnew, hpoints.symm, haccepted⟩
  · obtain ⟨e, he, hjoins, h', hh', hid', haccepted''⟩ := hcovered h hh haccepted'
    by_cases hsame : e.Joins new
    · exact ⟨edge, hedge, hjoinsNew.congr (hsame.sameRelation hjoins), new, hnew, hpoints.symm,
        haccepted⟩
    · refine ⟨e, hmaterialized.kept e he hsame, hjoins, ?_⟩
      by_cases heq : h'.id = old.id
      · exact ⟨new, hnew, (hid.trans heq.symm).trans hid', haccepted⟩
      · exact ⟨h', (mem_set hold).2 (.inr ⟨hh', heq⟩), hid', haccepted''⟩

/-- What `Orphans` excludes, for the hypothesis that the request withdraws. -/
theorem alone_of_not_orphans {call : Call} (hnot : ¬ Orphans db call) (hh : h ∈ db.hypotheses)
    (hwithdraws : withdraws db call h = true) (haccepted : h.Accepted)
    (hedge : ∃ e ∈ db.edges, e.hypothesisId = h.id) :
    ∀ h' ∈ db.hypotheses, h'.id ≠ h.id → h.SameRelation h' → ¬ h'.Accepted := by
  intro h' hh' hne hsame haccepted'
  exact hnot ⟨h, hh, haccepted, hwithdraws, hedge, h', hh', hne, hsame, haccepted'⟩

theorem probable_of_accepted (haccepted : h.Accepted)
    (hstatus : h.lifecycleStatus ∉ terminalStatuses) : h.lifecycleStatus = .probable := by
  rcases haccepted.1 with hconfirmed | hprobable
  · rw [hconfirmed] at hstatus
    exact absurd mem_cons_self hstatus
  · exact hprobable

theorem not_accepted_of_mutable (hstatus : h.lifecycleStatus ∉ evidenceImmutableStatuses) :
    ¬ h.Accepted := by
  rintro ⟨hconfirmed | hprobable, -⟩
  · rw [hconfirmed] at hstatus
    exact hstatus (mem_cons_of_mem _ mem_cons_self)
  · rw [hprobable] at hstatus
    exact hstatus mem_cons_self

theorem withdraws_review {call : Call} {h : CausalHypothesis} {decision : CausalReviewDecision}
    (hrequest : call.request = .review h.id decision)
    (hcheck : checkDecision db h decision = .ok ())
    (hmove : TerminalMove h
      { h with lifecycleStatus := resultingStatus h.lifecycleStatus decision })
    (hnot : ¬ decision.Accepts) (haccepted : h.Accepted)
    (hleaves : ¬ CausalHypothesis.Accepted
      { h with lifecycleStatus := resultingStatus h.lifecycleStatus decision }) :
    withdraws db call h = true := by
  rw [withdraws, hrequest]
  cases decision with
  | confirm => exact absurd (.inl rfl) hnot
  | probable => exact absurd (.inr rfl) hnot
  | defer => exact absurd haccepted hleaves
  | revoke =>
    have hconfirmed : h.lifecycleStatus = .confirmed := ensure_eq_ok.1 hcheck
    simp [hconfirmed]
  | reject =>
    -- The guard of terminal rows rejects the rejection of a confirmed hypothesis.
    rcases haccepted.1 with hconfirmed | hprobable
    · have hterminal := hmove (by rw [hconfirmed]; exact mem_cons_self)
      rw [hconfirmed] at hterminal
      exact absurd hterminal (by simp [resultingStatus, allowedTerminalTransitions])
    · simp [hprobable]

theorem ServeStep.covered {call : Call} (hstep : ServeStep env db call db')
    (hdb : Consistent db) (hedges : EdgesMatch db) (hcovered : Covered db)
    (hnot : ¬ Orphans db call) : Covered db' := by
  cases hstep with
  | same => exact hcovered
  | create h _ hstatus =>
    exact hcovered.append (not_accepted_of_status hstatus ⟨by decide, by decide⟩)
  | propose h hmem hstatus =>
    refine hcovered.rewrite hedges hdb.ids hmem
      (.of_status .proposed rfl ⟨rfl, rfl, rfl, rfl⟩ rfl ⟨by decide, by decide⟩) ?_
    intro _ haccepted
    exact absurd haccepted (not_accepted_of_status hstatus ⟨by decide, by decide⟩)
  | attach h link hmem hstatus =>
    have hquiet : Quiet h (h.attached ((db.links ++ [link]).filter (·.hypothesisId = h.id))) :=
      quiet_attached hstatus
    have hwritten := hcovered.rewrite hedges hdb.ids hmem hquiet fun _ haccepted =>
      absurd haccepted (not_accepted_of_mutable hstatus)
    exact hwritten
  | passed h stored hrequest hmem hstatus =>
    refine hcovered.rewrite hedges hdb.ids hmem (quiet_passed h _ _ _ _ stored) ?_
    intro _ haccepted
    refine alone_of_not_orphans hnot hmem ?_ haccepted
    simp [withdraws, hrequest, probable_of_accepted haccepted hstatus]
  | blocked h reasons hrequest hmem hstatus =>
    refine hcovered.rewrite hedges hdb.ids hmem (quiet_blocked h _ _ _ reasons) ?_
    intro _ haccepted
    refine alone_of_not_orphans hnot hmem ?_ haccepted
    simp [withdraws, hrequest, probable_of_accepted haccepted hstatus]
  | review h decision row edges hrequest hmem hcheck hmove _ hreviewed =>
    by_cases haccepts : decision.Accepts
    · have hcausal := causal_of_accepts hdb hmem haccepts hcheck
      have hmaterialized := materializeEdge_ok hedges.ids hedges.keys
        (reviewedEdges_accepts haccepts hreviewed)
      refine hcovered.accept hmaterialized hmem rfl ⟨?_, hcausal⟩ _
      rcases haccepts with rfl | rfl
      · exact .inl rfl
      · exact .inr rfl
    · obtain rfl := reviewedEdges_quiet haccepts hreviewed
      have hwritten := hcovered.rewrite hedges hdb.ids hmem (quiet_review haccepts)
        fun hleaves haccepted => alone_of_not_orphans hnot hmem
          (withdraws_review hrequest hcheck hmove haccepts haccepted hleaves) haccepted
      exact hwritten
  | revise h revision row interventionId intervention effect hrequest hfound hrevised hfresh
      hstatus =>
    obtain ⟨edge, -, -, hmem, -⟩ := revisedHypothesis_some hrevised
    have hopen := not_accepted_of_status hstatus ⟨by decide, by decide⟩
    have hwritten := (hcovered.append hopen).rewrite (hedges.append hopen)
      (hdb.ids.append hfresh) (mem_append_left _ hmem) (quiet_superseded h revision.id)
    refine hwritten ?_
    intro _ haccepted hedge h' hh' hne hsame
    rcases mem_append.1 hh' with hh' | hh'
    · refine alone_of_not_orphans hnot hmem ?_ haccepted hedge h' hh' hne hsame
      simp [withdraws, hrequest, hfound, hrevised]
    · obtain rfl := mem_singleton.1 hh'
      exact hopen
  | assess => exact hcovered

/-! ## The graph -/

/-- What a run keeps in which no request orphans a hypothesis. -/
structure Supported (db : Db) : Prop where
  consistent : Consistent db
  edgesMatch : EdgesMatch db
  covered : Covered db

theorem supported_empty : Supported {} where
  consistent := consistent_empty
  edgesMatch := edgesMatch_empty
  covered _ hh := absurd hh not_mem_nil

def Supports (db : Db) (org source target : UUID) (edgeType : CausalEdgeType)
    (h : CausalHypothesis) : Prop :=
  h ∈ db.hypotheses ∧ h.organizationId = org ∧ h.sourceNodeId = source ∧ h.targetNodeId = target ∧
    h.proposedEdgeType = edgeType ∧ AcceptedByReview db h

/-- The graph shows exactly the relations that an accepted hypothesis supports, each with the
numbers of such a hypothesis. -/
structure GraphAgrees (db : Db) : Prop where
  outgoing : ∀ org source target edgeType,
    (∃ e ∈ (traverse db org).1 source, e.targetNodeId = target ∧ e.edgeType = edgeType) ↔
      ∃ h, Supports db org source target edgeType h
  incoming : ∀ org source target edgeType,
    (∃ e ∈ (traverse db org).2 target, e.sourceNodeId = source ∧ e.edgeType = edgeType) ↔
      ∃ h, Supports db org source target edgeType h
  carries : ∀ org node e, e ∈ (traverse db org).1 node ∨ e ∈ (traverse db org).2 node →
    ∃ h, Supports db org e.sourceNodeId e.targetNodeId e.edgeType h ∧ e.Carries h

theorem mem_visibleEdges : e ∈ visibleEdges db org ↔ e ∈ db.edges ∧ e.organizationId = org ∧
      ∃ h ∈ db.hypotheses, h.id = e.hypothesisId ∧
        (h.lifecycleStatus = .confirmed ∨ h.lifecycleStatus = .probable) := by
  rw [visibleEdges, mem_filter, decide_eq_true_eq]

/-- A visible edge is the edge of an accepted hypothesis, and has its numbers. -/
theorem EdgesMatch.supports (hedges : EdgesMatch db) (hids : Unique (·.id) db.hypotheses)
    (he : e ∈ visibleEdges db org) :
    ∃ h, Supports db org e.sourceNodeId e.targetNodeId e.edgeType h ∧ e.Carries h := by
  obtain ⟨hmem, rfl, h, hh, hid, hstatus⟩ := mem_visibleEdges.1 he
  obtain ⟨h', hh', hid', ⟨horg, hsource, htarget, htype⟩, hcausal, hcarries⟩ :=
    hedges.targets e hmem
  obtain rfl := hids.eq_of_key_eq hh hh' (hid.trans hid'.symm)
  have haccepted : h.Accepted := ⟨hstatus, hcausal⟩
  exact ⟨h, ⟨hh, horg.symm, hsource.symm, htarget.symm, htype.symm,
    (acceptedByReview_iff hids hedges hh).2 haccepted⟩, hcarries haccepted⟩

theorem Supported.visible (hdb : Supported db) {source target : UUID} {edgeType : CausalEdgeType}
    (hsupports : Supports db org source target edgeType h) :
    ∃ e ∈ visibleEdges db org,
      e.sourceNodeId = source ∧ e.targetNodeId = target ∧ e.edgeType = edgeType := by
  obtain ⟨hh, rfl, rfl, rfl, rfl, hreviewed⟩ := hsupports
  have haccepted := (acceptedByReview_iff hdb.consistent.ids hdb.edgesMatch hh).1 hreviewed
  obtain ⟨e, he, ⟨horg, hsource, htarget, htype⟩, h', hh', hid, haccepted'⟩ :=
    hdb.covered h hh haccepted
  exact ⟨e, mem_visibleEdges.2 ⟨he, horg, h', hh', hid, haccepted'.1⟩, hsource, htarget, htype⟩

theorem Supported.graphAgrees (hdb : Supported db) : GraphAgrees db where
  outgoing org source target edgeType := by
    constructor
    · rintro ⟨e, he, rfl, rfl⟩
      obtain ⟨hvisible, hsource⟩ := mem_filter.1 he
      obtain ⟨h, hsupports, -⟩ := hdb.edgesMatch.supports hdb.consistent.ids hvisible
      rw [of_decide_eq_true hsource] at hsupports
      exact ⟨h, hsupports⟩
    · rintro ⟨h, hsupports⟩
      obtain ⟨e, hvisible, hsource, hrest⟩ := hdb.visible hsupports
      exact ⟨e, mem_filter.2 ⟨hvisible, decide_eq_true hsource⟩, hrest⟩
  incoming org source target edgeType := by
    constructor
    · rintro ⟨e, he, rfl, rfl⟩
      obtain ⟨hvisible, htarget⟩ := mem_filter.1 he
      obtain ⟨h, hsupports, -⟩ := hdb.edgesMatch.supports hdb.consistent.ids hvisible
      rw [of_decide_eq_true htarget] at hsupports
      exact ⟨h, hsupports⟩
    · rintro ⟨h, hsupports⟩
      obtain ⟨e, hvisible, hsource, htarget, htype⟩ := hdb.visible hsupports
      exact ⟨e, mem_filter.2 ⟨hvisible, decide_eq_true htarget⟩, hsource, htype⟩
  carries org node e he := by
    rcases he with he | he
    · exact hdb.edgesMatch.supports hdb.consistent.ids (mem_filter.1 he).1
    · exact hdb.edgesMatch.supports hdb.consistent.ids (mem_filter.1 he).1

theorem ServeStep.supported {call : Call} (hstep : ServeStep env db call db')
    (hdb : Supported db) (hnot : ¬ Orphans db call) : Supported db' where
  consistent := hstep.consistent hdb.consistent
  edgesMatch := hstep.edgesMatch hdb.consistent hdb.edgesMatch
  covered := hstep.covered hdb.consistent hdb.edgesMatch hdb.covered hnot

theorem supported_run {calls : List Call}
    (hcalls : (serve env).AllSteps (fun db call => ¬ Orphans db call) {} calls) :
    Supported ((serve env).run {} calls) :=
  Service.run_invariant_of supported_empty
    (fun hdb hnot hok => (serve_step hok).supported hdb hnot) hcalls

/-- The graph agrees with the reviewed hypotheses in every state of a run in which no request
orphans a hypothesis. -/
theorem graphAgrees_of_allSteps {calls : List Call}
    (hcalls : (serve env).AllSteps (fun db call => ¬ Orphans db call) {} calls) :
    ∀ before after, calls = before ++ after → GraphAgrees ((serve env).run {} before) := by
  rintro before after rfl
  rw [Service.allSteps_append] at hcalls
  exact (supported_run hcalls.1).graphAgrees

end Runs

/-! ## Two methods on one relation -/

namespace TwoMethods

theorem stored_weight : numeric 5 4 (9 / 10) = some (9 / 10) := by decide +kernel

theorem weight_nonneg : (0 : ℚ) ≤ 9 / 10 := by decide +kernel

theorem weight_le_one : (9 / 10 : ℚ) ≤ 1 := by decide +kernel

def weight : Score := ⟨9 / 10, stored_weight, weight_nonneg, weight_le_one⟩

/-- Any two method definitions of the same weight. -/
def env : Env where
  methods id := some ⟨id, "method", "1", weight⟩
  contentHash content := String.ofList (List.replicate content.methodId 'm')

/-- The two nodes of an organization. -/
def context : Context where
  canonicalEvents _ := none
  canonicalMetrics _ := none
  sourceCanonicalLinks _ := none
  nodes := [⟨1, 7, .other⟩, ⟨2, 7, .other⟩]
  interventions := []
  readinessBlocked := false

def call (now : Instant) (drawn : UUID) (request : Request) : Call :=
  ⟨7, 3, now, drawn, context, request⟩

/-- A hypothesis of the method is created, attached to a finding, evaluated and confirmed. -/
def confirmed (method id : UUID) : List Call :=
  [call 0 id (.create ⟨1, 2, .causes, method, none⟩),
    call 0 (id + 1) (.attach id ⟨.findingEvidence, 50, true⟩),
    call 1 (id + 2) (.evaluate id), call 2 (id + 3) (.review id .confirm)]

/-- One method is confirmed, then revoked. -/
def revoked : List Call := confirmed 1 10 ++ [call 3 20 (.review 10 .revoke)]

theorem revoked_steps : (serve env).AllSteps (fun db call => ¬ Orphans db call) {} revoked := by
  decide +kernel

theorem graphAgrees_revoked : GraphAgrees ((serve env).run {} revoked) :=
  graphAgrees_of_allSteps revoked_steps revoked [] (append_nil revoked).symm

/-- Both methods are confirmed, then the second one is revoked. -/
def calls : List Call := confirmed 1 10 ++ confirmed 2 20 ++ [call 3 30 (.review 20 .revoke)]

def final : Db := (serve env).run {} calls

theorem outgoing_final : (traverse final 7).1 1 = [] := by decide +kernel

theorem supports_final : ∃ h ∈ final.hypotheses, h.organizationId = 7 ∧ h.sourceNodeId = 1 ∧
    h.targetNodeId = 2 ∧ h.proposedEdgeType = .causes ∧ h.lifecycleStatus = .confirmed ∧
      ∃ row ∈ final.reviews, row.hypothesisId = h.id ∧ row.decision = .confirm := by
  decide +kernel

/-- The hypothesis of the first method is still confirmed, and its edge is gone. -/
theorem not_graphAgrees : ¬ ∀ (env : Env) (calls : List Call),
    GraphAgrees ((serve env).run {} calls) := by
  intro h
  obtain ⟨hypothesis, hh, horg, hsource, htarget, htype, hstatus, row, hrow, hid, hdecision⟩ :=
    supports_final
  have haccepted : AcceptedByReview final hypothesis :=
    ⟨⟨row, hrow, hid, .inl hdecision⟩, .inl hstatus⟩
  obtain ⟨e, he, -⟩ := ((h env calls).outgoing 7 1 2 .causes).2
    ⟨hypothesis, hh, horg, hsource, htarget, htype, haccepted⟩
  have hnone : e ∈ (traverse final 7).1 1 := he
  rw [outgoing_final] at hnone
  exact absurd hnone not_mem_nil

end TwoMethods

end Intel4Ops.Causal
